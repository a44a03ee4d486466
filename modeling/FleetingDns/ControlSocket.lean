import FleetingDns.GracefulShutdown
namespace FleetingDns.Shutdown

open GuardedRuns List

structure Instance where
  controlSocketPath : String
  controlHandle : Option ℕ

structure Process where
  shared : GracefulShutdown
  socketFiles : AList (fun _ : String => ℕ)
  tasks : List Bool
  instances : List (Option Instance)

namespace Process

section

variable (p : Process) (i : ℕ) (x : Instance)

def startControlSocket : Process :=
  { p with
    socketFiles := (p.socketFiles.erase x.controlSocketPath).insert x.controlSocketPath p.tasks.length
    tasks := p.tasks ++ [true]
    instances := p.instances.set i (some { x with controlHandle := some p.tasks.length }) }

def clone : Process :=
  { p with instances := p.instances ++ [some { x with controlHandle := none }] }

def drop : Process :=
  { p with
    socketFiles := p.socketFiles.erase x.controlSocketPath
    tasks := x.controlHandle.elim p.tasks fun task => p.tasks.set task false
    instances := p.instances.set i none }

def request (path : String) (command : ControlCommand) : Option ControlResponse :=
  (p.socketFiles.lookup path).bind fun task =>
    if p.tasks[task]? = some true then some (p.shared.handleControlCommand command).1 else none

end

def started (shared : GracefulShutdown) (files : AList fun _ : String => ℕ) (path : String) : Process :=
  startControlSocket ⟨shared, files, [], [some ⟨path, none⟩]⟩ 0 ⟨path, none⟩

end Process

inductive Handling where
  | clone (i : ℕ)
  | drop (i : ℕ)

def handle (p : Process) : Handling → Option Process
  | .clone i => p.instances[i]?.join.map p.clone
  | .drop i => p.instances[i]?.join.map (p.drop i)

variable {path : String} {p p' : Process}

structure Copied (path : String) (first : Option Instance) (copies : List (Option Instance)) (p : Process) : Prop where
  instances : p.instances = first :: copies
  holder : ∀ x ∈ first, x = ⟨path, some 0⟩
  helpers : ∀ copy ∈ copies, ∀ x ∈ copy, x = ⟨path, none⟩
  tasks : p.tasks = [first.isSome]
  file : p.socketFiles.lookup path = if p.instances.all Option.isSome then some 0 else none

lemma copied_clone {first : Option Instance} {copies : List (Option Instance)} {x : Instance}
    (h : Copied path first copies p) (hx : x.controlSocketPath = path) :
    Copied path first (copies ++ [some ⟨path, none⟩]) (p.clone x) where
  instances := by rw [Process.clone, h.instances, hx, cons_append]
  holder := h.holder
  helpers copy hcopy y hy := by
    rw [mem_append, mem_singleton] at hcopy
    obtain hold | rfl := hcopy
    · exact h.helpers copy hold y hy
    · exact (Option.some.inj hy).symm
  tasks := h.tasks
  file := by simpa [Process.clone] using h.file

lemma copied_step {a : Handling} (h : ∃ first copies, Copied path first copies p) (hstep : handle p a = some p') :
    ∃ first copies, Copied path first copies p' := by
  obtain ⟨first, copies, h⟩ := h
  cases a with
  | clone i =>
    simp only [handle, Option.map_eq_some_iff, Option.join_eq_some_iff] at hstep
    obtain ⟨x, hx, rfl⟩ := hstep
    refine ⟨first, _, copied_clone h ?_⟩
    rw [h.instances] at hx
    cases i with
    | zero => rw [h.holder x (Option.some.inj hx)]
    | succ => rw [h.helpers (some x) (mem_of_getElem? hx) x rfl]
  | drop i =>
    simp only [handle, Option.map_eq_some_iff, Option.join_eq_some_iff] at hstep
    obtain ⟨x, hx, rfl⟩ := hstep
    rw [h.instances] at hx
    cases i with
    | zero =>
      obtain rfl := Option.some.inj hx
      obtain rfl := h.holder x rfl
      exact ⟨none, copies, by simp [Process.drop, h.instances], by simp, h.helpers, by simp [Process.drop, h.tasks],
        by simp [Process.drop, h.instances]⟩
    | succ j =>
      obtain rfl := h.helpers (some x) (mem_of_getElem? hx) x rfl
      refine ⟨first, copies.set j none, by simp [Process.drop, h.instances], h.holder, ?_, h.tasks, ?_⟩
      · intro copy hcopy y hy
        obtain hold | rfl := mem_or_eq_of_mem_set hcopy
        · exact h.helpers copy hold y hy
        · cases hy
      have hj := (List.getElem?_eq_some_iff.mp hx).1
      have hnone : none ∈ copies.set j none := mem_set (by simpa using hj) _
      have hall : (first :: copies.set j none).all Option.isSome = false := by
        rw [all_eq_false]
        exact ⟨none, mem_cons_of_mem _ hnone, by simp⟩
      simp [Process.drop, h.instances, hall]

lemma reach_copied {shared : GracefulShutdown} {files : AList fun _ : String => ℕ}
    (h : Reach handle Free (.started shared files path) p) : ∃ first copies, Copied path first copies p := by
  refine h.invariant
    (fun _ _ => trivial) ?_ fun _ _ _ _ hp _ hstep => copied_step hp hstep
  exact ⟨some ⟨path, some 0⟩, [], rfl, by simp, by simp, rfl, by simp [Process.started, Process.startControlSocket]⟩

theorem socket_outlives (shared : GracefulShutdown) (files : AList fun _ : String => ℕ) (path : String)
    (h : Reach handle Free (.started shared files path) p) (halive : p.instances[0]?.join.isSome = true) :
    (path ∈ p.socketFiles ∧ ∀ command, p.request path command = some (p.shared.handleControlCommand command).1) ↔
      ∀ copy ∈ p.instances, copy.isSome = true := by
  obtain ⟨first, copies, hp⟩ := reach_copied h
  have hfirst : first.isSome = true := by simpa [hp.instances] using halive
  have hfile := hp.file
  rw [← all_eq_true]
  split_ifs at hfile with hall
  · refine iff_of_true ⟨?_, fun command => ?_⟩ hall
    · rw [← AList.lookup_isSome, hfile]
      rfl
    · simp [Process.request, hfile, hp.tasks, hfirst]
  · exact iff_of_false (fun hsocket => AList.lookup_eq_none.mp hfile hsocket.1) hall

namespace Daemon

def socket : String := "/run/dnsd.sock"

def serving : Process := (Process.started started ∅ socket).clone ⟨socket, some 0⟩

end Daemon

open Daemon

theorem socket_outlives_clone : Reach handle Free (.started Daemon.started ∅ socket) serving ∧
    serving.request socket .ping = some (serving.shared.respond "Pong") := by
  have hserving : Reach handle Free (.started Daemon.started ∅ socket) serving :=
    Reach.refl.tail (a := .clone 0) trivial rfl
  exact ⟨hserving, ((socket_outlives Daemon.started ∅ socket hserving rfl).mpr (by decide +kernel)).2 .ping⟩

/-- The server is handed a copy; when it returns, the instance that waits for the shutdown has lost its socket. -/
theorem socket_lost : ∃ p, Reach handle Free (.started Daemon.started ∅ socket) p ∧
    p.instances[0]?.join.isSome = true ∧ socket ∉ p.socketFiles ∧ p.request socket .status = none := by
  refine ⟨serving.drop 1 ⟨socket, none⟩, ?_, rfl, by decide +kernel, rfl⟩
  exact (Reach.refl.tail (a := .clone 0) trivial rfl).tail (a := .drop 1) trivial rfl

end FleetingDns.Shutdown
