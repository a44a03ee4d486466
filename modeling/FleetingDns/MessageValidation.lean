import Mathlib.Data.List.Flatten
import FleetingDns.KeyRotation
namespace FleetingDns.Dnssec

open ExpiringStore Dns Panics FirstLive GuardedRuns DnssecKeyManager List Option

def rrsigType : RecordType := .other 46

inductive AnswerData where
  | rrsig (rrsig : Rrsig)
  | other (typ : RecordType) (rdata : Bytes)
  deriving DecidableEq

structure Answer where
  name : Name
  ttl : ℕ
  data : AnswerData
  deriving DecidableEq

def Answer.recordType (record : Answer) : RecordType :=
  match record.data with
  | .rrsig _ => rrsigType
  | .other typ _ => typ

def RrsigRecord.answer (record : RrsigRecord) : Answer := ⟨record.name, record.ttl, .rrsig record.rrsig⟩

/-- The encoder of the DNS library: how a record is written may depend on those before it. -/
structure Encoder where
  State : Type
  fresh : State
  emit : State → Answer → Except String Unit × State
  bytes : State → Bytes

namespace Encoder

/-- A record that fails is left out, with what it may already have written. -/
def write (enc : Encoder) : List Answer → enc.State → List String × enc.State
  | [], state => ([], state)
  | record :: records, state =>
    match enc.emit state record with
    | (.ok (), state) => enc.write records state
    | (.error e, state) => let (errors, state) := enc.write records state; (e :: errors, state)

def encode (enc : Encoder) (records : List Answer) : Bytes := enc.bytes (enc.write records enc.fresh).2

end Encoder

inductive ValidationStatus where
  | unsigned
  | valid
  | invalid
  | error
  deriving DecidableEq

inductive ValidationError where
  | encoding (e : String)
  | unsupportedAlgorithm (algorithm : Algorithm)
  | invalidSignature (typ : RecordType)
  | validation (e : DnssecError)
  deriving DecidableEq

structure ValidationResult where
  status : ValidationStatus
  (validSignatures invalidSignatures validationErrors : ℕ)
  errors : List ValidationError
  deriving DecidableEq

def fromHickoryAlgorithm : Algorithm → Option DnssecAlgorithm
  | .unknown 253 => some .hmacSha256
  | .rsaSha256 => some .rsaSha256
  | .ecdsaP256Sha256 => some .ecdsaP256Sha256
  | _ => none

def covered (answers : List Answer) (rrsig : Rrsig) : List Answer := answers.filter (·.recordType = rrsig.typeCovered)

def ValidationResult.conclude (result : ValidationResult) : ValidationStatus :=
  if result.validationErrors > 0 then .error
  else if result.invalidSignatures > 0 then .invalid
  else if result.validSignatures > 0 then .valid
  else .unsigned

structure Rrset where
  name : Name
  typ : RecordType
  records : List Answer
  nonempty : records ≠ []
  uniform : ∀ r ∈ records, r.name = name ∧ r.recordType = typ

structure SignedSet where
  set : Rrset
  record : RrsigRecord

def SignedSet.answers (x : SignedSet) : List Answer := x.set.records ++ [x.record.answer]

def assembled (sets : List SignedSet) : List Answer := sets.flatMap SignedSet.answers

variable (hmac : Bytes → Bytes → Bytes) (enc : Encoder) (m : DnssecKeyManager) (answers : List Answer) (readAt : ℕ → ℕ)

def DnssecKeyManager.validateAnswer (now : ℕ) (result : ValidationResult) (record : Answer) : ValidationResult :=
  match record.data with
  | .other _ _ => result
  | .rrsig rrsig =>
    let coveredRecords := covered answers rrsig
    if coveredRecords.isEmpty then result
    else
      let errors := result.errors ++ (enc.write coveredRecords enc.fresh).1.map .encoding
      match fromHickoryAlgorithm rrsig.algorithm with
      | none => { result with errors := errors ++ [.unsupportedAlgorithm rrsig.algorithm] }
      | some algorithm =>
        match m.validateRrsig hmac rrsig (enc.encode coveredRecords) algorithm now with
        | .ok true => { result with errors := errors, validSignatures := result.validSignatures + 1 }
        | .ok false => { result with
            errors := errors ++ [.invalidSignature rrsig.typeCovered]
            invalidSignatures := result.invalidSignatures + 1 }
        | .error e => { result with
            errors := errors ++ [.validation e]
            validationErrors := result.validationErrors + 1 }

def signatures : List Answer := answers.filter (·.recordType = rrsigType)

def DnssecKeyManager.validateDnsMessage : ValidationResult :=
  let result : ValidationResult := ⟨.unsigned, 0, 0, 0, []⟩
  if (signatures answers).isEmpty then result
  else
    let result := (signatures answers).zipIdx.foldl
      (fun result x => m.validateAnswer hmac enc answers (readAt x.2) result x.1) result
    { result with status := result.conclude }

def DnssecKeyManager.check (x : Answer × ℕ) : Option (Except DnssecError Bool) :=
  match x.1.data with
  | .other _ _ => none
  | .rrsig rrsig =>
    if (covered answers rrsig).isEmpty then none
    else (fromHickoryAlgorithm rrsig.algorithm).map
      fun algorithm => m.validateRrsig hmac rrsig (enc.encode (covered answers rrsig)) algorithm (readAt x.2)

/-- Some signature is checked, and each one that is checked verifies over all the records of its type. -/
def Passes : Prop :=
  (∃ x ∈ (signatures answers).zipIdx, m.check hmac enc answers readAt x = some (.ok true)) ∧
    ∀ x ∈ (signatures answers).zipIdx, ∀ r, m.check hmac enc answers readAt x = some r → r = .ok true

def rrset (name : Name) (typ : RecordType) : List Answer :=
  answers.filter fun record => record.name = name ∧ record.recordType = typ

def Verifies (rrsig : Rrsig) (records : List Answer) : Prop :=
  ∃ algorithm i, fromHickoryAlgorithm rrsig.algorithm = some algorithm ∧
    m.validateRrsig hmac rrsig (enc.encode records) algorithm (readAt i) = .ok true

def Vouches (g : Answer) : Prop :=
  ∃ rrsig, g.data = .rrsig rrsig ∧ rrset answers g.name rrsig.typeCovered ≠ [] ∧
    Verifies hmac enc m readAt rrsig (rrset answers g.name rrsig.typeCovered)

def Signs (g : Answer) (rrsig : Rrsig) (r : Answer) : Prop :=
  g.data = .rrsig rrsig ∧ g.name = r.name ∧ rrsig.typeCovered = r.recordType

/-- Every signature verifies over the RRset of its owner and type, and every other record is in such an RRset. -/
structure Authentic : Prop where
  signatures : ∀ g ∈ answers, g.recordType = rrsigType → Vouches hmac enc m answers readAt g
  records : ∀ r ∈ answers, r.recordType ≠ rrsigType → ∃ g ∈ answers, ∃ rrsig, Signs g rrsig r ∧
    Verifies hmac enc m readAt rrsig (rrset answers r.name r.recordType)

/-- Every signature has an algorithm the validator knows and the owner of all the records of its type, of which there
is one, and every other record has a signature for its owner and type. -/
structure WellSigned : Prop where
  signatures : ∀ g ∈ answers, g.recordType = rrsigType → ∃ rrsig algorithm, g.data = .rrsig rrsig ∧
    fromHickoryAlgorithm rrsig.algorithm = some algorithm ∧ covered answers rrsig ≠ [] ∧
    ∀ r ∈ covered answers rrsig, r.name = g.name
  records : ∀ r ∈ answers, r.recordType ≠ rrsigType → ∃ g ∈ answers, ∃ rrsig, Signs g rrsig r

/-- The tags of the two lists of records differ under all keys. -/
def Separated (records records' : List Answer) : Prop :=
  ∀ key key', hmac key (enc.encode records) = hmac key' (enc.encode records') → records = records'

def failed : Option (Except DnssecError Bool) → Bool
  | some (.error _) => true
  | _ => false

lemma validateAnswer_counts (result : ValidationResult) (x : Answer × ℕ) :
    let r := m.validateAnswer hmac enc answers (readAt x.2) result x.1
    let c := m.check hmac enc answers readAt x
    r.validSignatures = result.validSignatures + (if c = some (.ok true) then 1 else 0) ∧
    r.invalidSignatures = result.invalidSignatures + (if c = some (.ok false) then 1 else 0) ∧
    r.validationErrors = result.validationErrors + if failed c then 1 else 0 := by
  rw [validateAnswer, check]
  cases x.1.data with
  | other => exact ⟨rfl, rfl, rfl⟩
  | rrsig rrsig =>
    by_cases hempty : (covered answers rrsig).isEmpty = true
    · simp [hempty, failed]
    simp only [hempty]
    cases fromHickoryAlgorithm rrsig.algorithm with
    | none => exact ⟨rfl, rfl, rfl⟩
    | some algorithm =>
      simp only [map_some]
      rcases m.validateRrsig hmac rrsig (enc.encode (covered answers rrsig)) algorithm (readAt x.2) with e | _ | _ <;>
        exact ⟨rfl, rfl, rfl⟩

lemma foldl_counts (xs : List (Answer × ℕ)) (result : ValidationResult) :
    let final := xs.foldl (fun result x => m.validateAnswer hmac enc answers (readAt x.2) result x.1) result
    let check := m.check hmac enc answers readAt
    final.validSignatures = result.validSignatures + xs.countP (check · = some (.ok true)) ∧
    final.invalidSignatures = result.invalidSignatures + xs.countP (check · = some (.ok false)) ∧
    final.validationErrors = result.validationErrors + xs.countP (fun x => failed (check x)) := by
  induction xs generalizing result with
  | nil => simp
  | cons x xs ih =>
    have hx := validateAnswer_counts hmac enc m answers readAt result x
    have hxs := ih (m.validateAnswer hmac enc answers (readAt x.2) result x.1)
    simp only [foldl_cons, countP_cons, decide_eq_true_eq] at *
    omega

variable {hmac enc m answers readAt}

lemma good_iff {c : Option (Except DnssecError Bool)} :
    (∀ r, c = some r → r = .ok true) ↔ c ≠ some (.ok false) ∧ ¬ failed c = true := by
  rcases c with _ | e | _ | _ <;> simp [failed]

lemma valid_iff : (m.validateDnsMessage hmac enc answers readAt).status = .valid ↔
    Passes hmac enc m answers readAt := by
  obtain ⟨hvalid, hinvalid, herror⟩ := foldl_counts hmac enc m answers readAt
    (signatures answers).zipIdx ⟨.unsigned, 0, 0, 0, []⟩
  rw [validateDnsMessage, Passes]
  split_ifs with hempty
  · simp [isEmpty_iff.mp hempty]
  simp only [ValidationResult.conclude, hvalid, hinvalid, herror, Nat.zero_add, countP_pos_iff, good_iff,
    decide_eq_true_eq]
  split_ifs with hfailed hrefused hpassed
  · obtain ⟨x, hx, hf⟩ := hfailed
    exact iff_of_false (by simp) fun h => (h.2 x hx).2 hf
  · obtain ⟨x, hx, hr⟩ := hrefused
    exact iff_of_false (by simp) fun h => (h.2 x hx).1 hr
  · exact iff_of_true rfl ⟨hpassed, fun x hx => ⟨fun hr => hrefused ⟨x, hx, hr⟩, fun hf => hfailed ⟨x, hx, hf⟩⟩⟩
  · exact iff_of_false (by simp) fun h => hpassed h.1

lemma covered_eq_rrset {rrsig : Rrsig} {name : Name} (h : ∀ r ∈ covered answers rrsig, r.name = name) :
    covered answers rrsig = rrset answers name rrsig.typeCovered := by
  apply filter_congr
  intro r hr
  by_cases ht : r.recordType = rrsig.typeCovered
  · have hname := h r (mem_filter.mpr ⟨hr, by simpa using ht⟩)
    simp [hname]
  · simp [ht]

lemma check_signature {g : Answer} {rrsig : Rrsig} {algorithm : DnssecAlgorithm}
    (h : Passes hmac enc m answers readAt) (hg : g ∈ answers) (hdata : g.data = .rrsig rrsig)
    (halg : fromHickoryAlgorithm rrsig.algorithm = some algorithm) (hne : covered answers rrsig ≠ []) :
    ∃ i, m.validateRrsig hmac rrsig (enc.encode (covered answers rrsig)) algorithm (readAt i) = .ok true := by
  have hmem : g ∈ signatures answers := mem_filter.mpr ⟨hg, by simp [Answer.recordType, hdata]⟩
  obtain ⟨i, hi⟩ := mem_iff_getElem?.mp hmem
  exact ⟨i, h.2 (g, i) (mk_mem_zipIdx_iff_getElem?.mpr hi) _ (by simp [check, hdata, halg, hne])⟩

lemma validateRrsig_true {rrsig : Rrsig} {bytes : Bytes} {a : DnssecAlgorithm} {t : ℕ}
    (h : m.validateRrsig hmac rrsig bytes a t = .ok true) : ∃ key, rrsig.sig = hmac key bytes := by
  rw [validateRrsig] at h
  cases hg : m.getActiveKey a t with
  | error => simp [hg] at h
  | ok k =>
    simp only [hg, Except.ok.injEq, decide_eq_true_eq] at h
    exact ⟨k.secret, h.trans (signature_eq k bytes)⟩

lemma authentic_of_passes (hw : WellSigned answers) (h : Passes hmac enc m answers readAt) :
    Authentic hmac enc m answers readAt := by
  have hsig : ∀ g ∈ answers, g.recordType = rrsigType → Vouches hmac enc m answers readAt g := by
    intro g hg htype
    obtain ⟨rrsig, algorithm, hdata, halg, hne, howner⟩ := hw.signatures g hg htype
    obtain ⟨i, hok⟩ := check_signature h hg hdata halg hne
    rw [covered_eq_rrset howner] at hok hne
    exact ⟨rrsig, hdata, hne, algorithm, i, halg, hok⟩
  refine ⟨hsig, fun r hr htype => ?_⟩
  obtain ⟨g, hg, rrsig, hsigns⟩ := hw.records r hr htype
  obtain ⟨rrsig', hdata, -, hv⟩ := hsig g hg (by simp [Answer.recordType, hsigns.1])
  cases hsigns.1.symm.trans hdata
  rw [hsigns.2.1, hsigns.2.2] at hv
  exact ⟨g, hg, rrsig, hsigns, hv⟩

lemma wellSigned_of_authentic (hsep : ∀ g ∈ answers, ∀ rrsig, g.data = .rrsig rrsig →
      Separated hmac enc (covered answers rrsig) (rrset answers g.name rrsig.typeCovered))
    (h : Passes hmac enc m answers readAt) (ha : Authentic hmac enc m answers readAt) : WellSigned answers where
  signatures g hg htype := by
    obtain ⟨rrsig, hdata, hne, algorithm, j, halg, hv⟩ := ha.signatures g hg htype
    have hcovered : covered answers rrsig ≠ [] := by
      obtain ⟨r, hr⟩ := exists_mem_of_ne_nil _ hne
      simp only [rrset, mem_filter, decide_eq_true_eq] at hr
      exact ne_nil_of_mem (mem_filter.mpr ⟨hr.1, decide_eq_true hr.2.2⟩)
    obtain ⟨i, hok⟩ := check_signature h hg hdata halg hcovered
    obtain ⟨key, hpool⟩ := validateRrsig_true hok
    obtain ⟨key', hset⟩ := validateRrsig_true hv
    have heq := hsep g hg rrsig hdata key key' (hpool.symm.trans hset)
    refine ⟨rrsig, algorithm, hdata, halg, hcovered, fun r hr => ?_⟩
    rw [heq] at hr
    exact (of_decide_eq_true (mem_filter.mp hr).2).1
  records r hr htype := by
    obtain ⟨g, hg, rrsig, hsigns, -⟩ := ha.records r hr htype
    exact ⟨g, hg, rrsig, hsigns⟩

variable {config : DnssecConfig} {s s' : Signer} {op : Op}

inductive Session (hmac : Bytes → Bytes → Bytes) (enc : Encoder) : Signer → List SignedSet → Signer → Prop
  | done {s : Signer} : Session hmac enc s [] s
  | sign {s s1 s' : Signer} {set : Rrset} {record : RrsigRecord} {sets : List SignedSet} {ttl : ℕ} {a : DnssecAlgorithm}
      {times : RecordTimes} {u32 : ℕ → Option ℕ} :
      Signer.step hmac s (.rrsigRecord set.name set.typ ttl (enc.encode set.records) a times) = some s1 →
      (s.manager.rrsigRecordWithAlgorithm hmac u32 set.name set.typ ttl (enc.encode set.records) a times).1 =
        some (.ok record) →
      Session hmac enc s1 sets s' → Session hmac enc s (⟨set, record⟩ :: sets) s'
  | other {s s1 s' : Signer} {op : Op} {sets : List SignedSet} : Signer.Fresh s op → Signer.step hmac s op = some s1 →
      Session hmac enc s1 sets s' → Session hmac enc s sets s'

section

variable (hmac enc)

def Backed (s : Signer) (x : SignedSet) : Prop :=
  x.record.name = x.set.name ∧ x.record.rrsig.typeCovered = x.set.typ ∧
    ∃ a, x.record.rrsig.algorithm = a.toHickoryAlgorithm ∧
    ∃ k ∈ s.issued, x.record.rrsig.sig = signature hmac k (enc.encode x.set.records) ∧
    Leads DnssecKey.expiresAt s.clock (ofAlgorithm a s.issued) k

/-- No RRset is of signatures, and no two are of one type. -/
structure OneEach (sets : List SignedSet) : Prop where
  plain : ∀ x ∈ sets, x.set.typ ≠ rrsigType
  distinct : sets.Pairwise fun x y => x.set.typ ≠ y.set.typ

/-- There are RRsets, and the key behind each signature can be read and is unexpired when the signature is checked. -/
structure Lasting (s : Signer) (sets : List SignedSet) (readAt : ℕ → ℕ) : Prop extends OneEach sets where
  nonempty : sets ≠ []
  read : s.manager.poisoned = false
  current : ∀ i x, sets[i]? = some x → ∀ k ∈ s.issued,
    signature hmac k (enc.encode x.set.records) = x.record.rrsig.sig → readAt i < k.expiresAt

end

variable {x : SignedSet} {sets : List SignedSet}

lemma backed_step (h : Backed hmac enc s x) (hstep : Signer.step hmac s op = some s') : Backed hmac enc s' x := by
  obtain ⟨hname, htyp, a, halg, k, hk, hsig, hl⟩ := h
  exact ⟨hname, htyp, a, halg, k, Signer.issued_step hstep hk, hsig, Signer.leads_step hstep hl⟩

lemma backed_session (h : Session hmac enc s sets s') (hb : Backed hmac enc s x) : Backed hmac enc s' x := by
  induction h with
  | done => exact hb
  | sign hstep _ _ ih | other _ hstep _ ih => exact ih (backed_step hb hstep)

lemma session_backed (hr : Signer.Reachable hmac config s) (h : Session hmac enc s sets s') :
    Signer.Reachable hmac config s' ∧ ∀ x ∈ sets, Backed hmac enc s' x := by
  induction h with
  | done => exact ⟨hr, by simp⟩
  | @sign s s1 s' set record sets ttl a times u32 hstep hrecord hrest ih =>
    obtain ⟨hr', hsets⟩ := ih (hr.step (Signer.fresh_record hr.sound) hstep)
    obtain ⟨k, hk, hsig, hl⟩ := Signer.record_backed hr.sound hstep hrecord
    obtain ⟨-, -, -, -, -, -, -, -, htyp, halg, hname⟩ := Signer.record_ok hrecord
    have hhead : Backed hmac enc s1 ⟨set, record⟩ := ⟨hname, htyp, a, halg, k, Signer.issued_step hstep hk, hsig, hl⟩
    exact ⟨hr', forall_mem_cons.mpr ⟨backed_session hrest hhead, hsets⟩⟩
  | other hf hstep _ ih => exact ih (hr.step hf hstep)

lemma fromHickory_toHickory (a : DnssecAlgorithm) : fromHickoryAlgorithm a.toHickoryAlgorithm = some a := by
  cases a <;> rfl

lemma filter_answers (x : SignedSet) (typ : RecordType) : x.answers.filter (·.recordType = typ) =
    (if x.set.typ = typ then x.set.records else []) ++ if rrsigType = typ then [x.record.answer] else [] := by
  have hset : x.set.records.filter (·.recordType = typ) = if x.set.typ = typ then x.set.records else [] := by
    split_ifs with htyp
    · rw [filter_eq_self]
      exact fun r hr => decide_eq_true ((x.set.uniform r hr).2.trans htyp)
    · rw [filter_eq_nil_iff]
      intro r hr
      rwa [(x.set.uniform r hr).2, decide_eq_true_eq]
  rw [SignedSet.answers, filter_append, hset]
  by_cases h : rrsigType = typ <;> simp [Answer.recordType, RrsigRecord.answer, h]

lemma filter_assembled (ho : OneEach sets) (hx : x ∈ sets) :
    (assembled sets).filter (·.recordType = x.set.typ) = x.set.records := by
  obtain ⟨hplain, hd⟩ := ho
  have hx' := (hplain x hx).symm
  have hnone {y : SignedSet} (hy : x.set.typ ≠ y.set.typ) : y.answers.filter (·.recordType = x.set.typ) = [] := by
    simp [filter_answers, hy.symm, hx']
  induction sets with
  | nil => simp at hx
  | cons y sets ih =>
    rw [pairwise_cons] at hd
    rw [assembled, flatMap_cons, filter_append, ← assembled]
    rcases mem_cons.mp hx with rfl | hmem
    · have hrest : (assembled sets).filter (·.recordType = x.set.typ) = [] := by
        rw [assembled, filter_flatMap, flatMap_eq_nil_iff]
        exact fun z hz => hnone (hd.1 z hz)
      simp [hrest, filter_answers, hx']
    · rw [hnone (hd.1 x hmem).symm]
      exact ih hmem (fun z hz => hplain z (mem_cons_of_mem y hz)) hd.2

lemma covered_assembled (ho : OneEach sets) (hx : x ∈ sets) (hb : Backed hmac enc s x) :
    covered (assembled sets) x.record.rrsig = x.set.records := by
  rw [covered, hb.2.1]
  exact filter_assembled ho hx

lemma mem_signatures (hplain : ∀ x ∈ sets, x.set.typ ≠ rrsigType) {g : Answer} {i : ℕ} :
    (g, i) ∈ (signatures (assembled sets)).zipIdx ↔ ∃ x, sets[i]? = some x ∧ x.record.answer = g := by
  have hmap : signatures (assembled sets) = sets.map (·.record.answer) := by
    rw [signatures, assembled, filter_flatMap, map_eq_flatMap]
    apply flatMap_congr
    intro x hx
    simp [filter_answers, hplain x hx]
  rw [hmap, mk_mem_zipIdx_iff_getElem?, getElem?_map, map_eq_some_iff]

lemma answer_mem (hx : x ∈ sets) : x.record.answer ∈ assembled sets :=
  mem_flatMap.mpr ⟨x, hx, by simp [SignedSet.answers]⟩

lemma wellSigned_assembled (ho : OneEach sets) (hb : ∀ x ∈ sets, Backed hmac enc s x) : WellSigned (assembled sets) where
  signatures g hg htype := by
    have hmem : g ∈ Dnssec.signatures (assembled sets) := mem_filter.mpr ⟨hg, decide_eq_true htype⟩
    obtain ⟨i, hi⟩ := mem_iff_getElem?.mp hmem
    obtain ⟨x, hget, rfl⟩ := (mem_signatures ho.plain).mp (mk_mem_zipIdx_iff_getElem?.mpr hi)
    have hx := mem_of_getElem? hget
    obtain ⟨hname, -, a, halg, -⟩ := hb x hx
    refine ⟨x.record.rrsig, a, rfl, by rw [halg, fromHickory_toHickory], ?_⟩
    rw [covered_assembled ho hx (hb x hx)]
    exact ⟨x.set.nonempty, fun r hr => (x.set.uniform r hr).1.trans hname.symm⟩
  records r hr htype := by
    obtain ⟨x, hx, hmem⟩ := mem_flatMap.mp hr
    rcases mem_append.mp hmem with hset | hset
    · obtain ⟨hname, htyp, -⟩ := hb x hx
      obtain ⟨hrname, hrtype⟩ := x.set.uniform r hset
      exact ⟨_, answer_mem hx, _, rfl, hname.trans hrname.symm, htyp.trans hrtype.symm⟩
    · rw [mem_singleton.mp hset] at htype
      exact absurd rfl htype

lemma check_assembled {a : DnssecAlgorithm} (hcovered : covered (assembled sets) x.record.rrsig = x.set.records)
    (halg : x.record.rrsig.algorithm = a.toHickoryAlgorithm) (m : DnssecKeyManager) (i : ℕ) :
    m.check hmac enc (assembled sets) readAt (x.record.answer, i) =
      some (m.validateRrsig hmac x.record.rrsig (enc.encode x.set.records) a (readAt i)) := by
  simp [check, RrsigRecord.answer, hcovered, halg, fromHickory_toHickory, x.set.nonempty]

section

variable (hs : Signer.Sound hmac config s) (hb : ∀ x ∈ sets, Backed hmac enc s x) (hclock : ∀ i, s.clock ≤ readAt i)

include hs hb hclock

lemma passes_of_lasting (hl : Lasting hmac enc s sets readAt) : Passes hmac enc s.manager (assembled sets) readAt := by
  have hcheck {i : ℕ} {x : SignedSet} (hi : sets[i]? = some x) :
      s.manager.check hmac enc (assembled sets) readAt (x.record.answer, i) = some (.ok true) := by
    have hx := mem_of_getElem? hi
    have hcovered := covered_assembled hl.toOneEach hx (hb x hx)
    obtain ⟨-, -, a, halg, k, hk, hsig, hleads⟩ := hb x hx
    have hactive : s.manager.getActiveKey a (readAt i) = .ok k := (Signer.getActiveKey_iff hs.toKept (hclock i)).mpr
      ⟨hl.read, hleads.later (hclock i) (hl.current i x hi k hk hsig.symm)⟩
    rw [check_assembled hcovered halg, validateRrsig, hactive]
    simp [hsig]
  constructor
  · obtain ⟨x, hx⟩ := exists_mem_of_ne_nil sets hl.nonempty
    obtain ⟨i, hi⟩ := mem_iff_getElem?.mp hx
    exact ⟨(x.record.answer, i), (mem_signatures hl.plain).mpr ⟨x, hi, rfl⟩, hcheck hi⟩
  · rintro ⟨g, i⟩ hg r hr
    obtain ⟨x, hi, rfl⟩ := (mem_signatures hl.plain).mp hg
    rw [hcheck hi, Option.some.injEq] at hr
    exact hr.symm

lemma lasting_of_passes (hinj : ∀ data, Function.Injective (hmac · data))
    (hsep : ∀ x ∈ sets, Separated hmac enc (covered (assembled sets) x.record.rrsig) x.set.records)
    (h : Passes hmac enc s.manager (assembled sets) readAt) : Lasting hmac enc s sets readAt := by
  have hpos (x : SignedSet) : 0 < x.set.records.length := length_pos_of_ne_nil x.set.nonempty
  have hsub {sets' : List SignedSet} (hsets : sets'.Sublist sets) {x : SignedSet} (hx : x ∈ sets) :
      ((sets'.flatMap SignedSet.answers).filter (·.recordType = x.set.typ)).length ≤
        (covered (assembled sets) x.record.rrsig).length := by
    rw [covered, (hb x hx).2.1]
    exact ((hsets.flatMap _).filter _).length_le
  -- a signature is checked over all the records of its type, and these are the ones it was made over
  have hcovered : ∀ x ∈ sets, covered (assembled sets) x.record.rrsig = x.set.records := by
    intro x hx
    obtain ⟨-, -, a, halg, k, -, hsig, -⟩ := hb x hx
    have hlen := hsub (singleton_sublist.mpr hx) hx
    have hne : covered (assembled sets) x.record.rrsig ≠ [] := by
      have := hpos x
      simp only [flatMap_cons, flatMap_nil, append_nil, filter_answers, if_true, length_append] at hlen
      exact ne_nil_of_length_pos (by omega)
    obtain ⟨i, hok⟩ := check_signature h (answer_mem hx) rfl (by rw [halg, fromHickory_toHickory]) hne
    obtain ⟨key, hkey⟩ := validateRrsig_true hok
    exact hsep x hx key k.secret (by rw [← hkey, hsig, signature_eq])
  have hplain : ∀ x ∈ sets, x.set.typ ≠ rrsigType := by
    intro x hx htyp
    have hlen := hsub (singleton_sublist.mpr hx) hx
    simp [hcovered x hx, filter_answers, htyp] at hlen
  have haccepted {i : ℕ} {x : SignedSet} (hi : sets[i]? = some x) : ∃ k ∈ s.issued,
      x.record.rrsig.sig = signature hmac k (enc.encode x.set.records) ∧ s.manager.poisoned = false ∧
        readAt i < k.expiresAt := by
    have hx := mem_of_getElem? hi
    obtain ⟨-, -, a, halg, k, hk, hsig, hleads⟩ := hb x hx
    have hok := h.2 _ ((mem_signatures hplain).mpr ⟨x, hi, rfl⟩) _ (check_assembled (hcovered x hx) halg s.manager i)
    exact ⟨k, hk, hsig, (Signer.accepted_iff hinj hs hk hleads hsig (hclock i)).mp hok⟩
  have hfirst : sets ≠ [] := by
    rintro rfl
    obtain ⟨⟨x, hx, -⟩, -⟩ := h
    cases hx
  refine ⟨⟨hplain, ?_⟩, hfirst, ?_, ?_⟩
  · rw [pairwise_iff_forall_sublist]
    intro x y hxy htyp
    have hx := hxy.mem mem_cons_self
    have hlen := hsub hxy hx
    simp only [flatMap_cons, filter_append, filter_answers, htyp, if_true, length_append, hcovered x hx] at hlen
    have := hpos y
    omega
  · obtain ⟨x, hx⟩ := exists_mem_of_ne_nil sets hfirst
    obtain ⟨i, hi⟩ := mem_iff_getElem?.mp hx
    obtain ⟨-, -, -, hread, -⟩ := haccepted hi
    exact hread
  · intro i x hi k hk hsig
    obtain ⟨k', hk', hsig', -, hlive⟩ := haccepted hi
    rwa [hs.eq_of_signature hinj hk hk' (hsig.trans hsig')]

end

namespace Sessions

open Dnssec.Schedule

def wire : Encoder where
  State := Bytes
  fresh := []
  emit state record := (.ok (), state ++ match record.data with
    | .rrsig rrsig => rrsig.sig
    | .other _ rdata => rdata)
  bytes state := state

def address (name : Name) (n : ℕ) : Rrset where
  name := name
  typ := .a
  records := [⟨name, 300, .other .a (zeros n)⟩]
  nonempty := by simp
  uniform := by simp [Answer.recordType]

def text (name : Name) (n : ℕ) : Rrset where
  name := name
  typ := .other 16
  records := [⟨name, 300, .other (.other 16) (zeros n)⟩]
  nonempty := by simp
  uniform := by simp [Answer.recordType]

def docs : Name := ⟨["docs", "fleetingdns", "run"]⟩

def session : Signer → ℕ → List Rrset → Option (List SignedSet × Signer)
  | s, _, [] => some ([], s)
  | s, t, x :: sets =>
    match (s.manager.rrsigRecordWithAlgorithm join (fits 32) x.name x.typ 300 (wire.encode x.records) .rsaSha256
      (recording t)).1 with
    | some (.ok record) =>
      (Signer.step join s (.rrsigRecord x.name x.typ 300 (wire.encode x.records) .rsaSha256 (recording t))).bind
        fun s1 => (session s1 (t + 1) sets).map fun y => (⟨x, record⟩ :: y.1, y.2)
    | _ => none

lemma session_of_session {sets : List Rrset} {s s' : Signer} {t : ℕ} {signed : List SignedSet}
    (h : session s t sets = some (signed, s')) : Session join wire s signed s' := by
  induction sets generalizing s t signed with
  | nil =>
    cases h
    exact .done
  | cons x sets ih =>
    rw [session] at h
    split at h
    · rename_i record hrecord
      obtain ⟨s1, hstep, hrest⟩ := bind_eq_some_iff.mp h
      obtain ⟨⟨signed', s''⟩, hx, heq⟩ := map_eq_some_iff.mp hrest
      cases heq
      exact .sign hstep hrecord (ih hx)
    · cases h

def lasting (s : Signer) (t : ℕ) : Bool :=
  decide (s.clock ≤ t) && !s.manager.poisoned && s.issued.all fun k => t < k.expiresAt

lemma lasting_iff {s : Signer} {t : ℕ} : lasting s t = true ↔
    s.clock ≤ t ∧ s.manager.poisoned = false ∧ ∀ k ∈ s.issued, t < k.expiresAt := by
  simp [lasting, and_assoc]

end Sessions

open Dnssec.Schedule Sessions Signer

def covers (typ : RecordType) (g : Answer) : Bool :=
  match g.data with
  | .rrsig rrsig => rrsig.typeCovered = typ
  | .other _ _ => false

lemma not_authentic {r : Answer} (hr : r ∈ answers) (htype : r.recordType ≠ rrsigType)
    (h : answers.any (covers r.recordType) = false) : ¬ Authentic hmac enc m answers readAt := by
  intro ha
  obtain ⟨g, hg, rrsig, ⟨hdata, -, hcovers⟩, -⟩ := ha.records r hr htype
  rw [List.any_eq_false] at h
  exact h g hg (by simp [covers, hdata, hcovers])

end FleetingDns.Dnssec
