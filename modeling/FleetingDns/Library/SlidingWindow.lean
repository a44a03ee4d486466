import Mathlib.Data.List.Basic
import Mathlib.Data.Nat.Notation
namespace FleetingDns.SlidingWindow

open List

def live (width now : ℕ) (times : List ℕ) : List ℕ := times.filter fun t => now - t < width

def within (start width : ℕ) (times : List ℕ) : ℕ := times.countP fun t => decide (start ≤ t) && decide (t < start + width)

variable {width limit now later : ℕ} {times : List ℕ}

lemma live_append (width now : ℕ) (a b : List ℕ) : live width now (a ++ b) = live width now a ++ live width now b :=
  filter_append ..

lemma live_later (times : List ℕ) (h : now ≤ later) : live width later (live width now times) = live width later times := by
  unfold live
  rw [filter_filter]
  apply filter_congr
  intro t _
  rw [Bool.eq_iff_iff, Bool.and_eq_true, decide_eq_true_eq, decide_eq_true_eq]
  omega

lemma live_eq_nil (h : ∀ t ∈ times, width ≤ now - t) : live width now times = [] := by
  apply filter_eq_nil_iff.mpr
  intro t ht
  have := h t ht
  simp only [decide_eq_true_eq]
  omega

lemma within_append (start width : ℕ) (a b : List ℕ) : within start width (a ++ b) = within start width a + within start width b :=
  countP_append

lemma within_admitted (hpast : ∀ t ∈ times, t ≤ now) (hlive : (live width now times).length < limit)
    (hbound : ∀ start, within start width times ≤ limit) (start : ℕ) : within start width (times ++ [now]) ≤ limit := by
  rw [within_append]
  by_cases hin : start ≤ now ∧ now < start + width
  · have hle : within start width times ≤ (live width now times).length := by
      unfold within live
      rw [← countP_eq_length_filter]
      apply countP_mono_left
      simp only [Bool.and_eq_true, decide_eq_true_eq]
      omega
    have hone : within start width [now] ≤ 1 := countP_le_length
    omega
  have hnone : within start width [now] = 0 := by
    apply countP_eq_zero.mpr
    intro t ht
    rw [mem_singleton.mp ht, Bool.and_eq_true, decide_eq_true_eq, decide_eq_true_eq]
    exact hin
  have := hbound start
  omega

end FleetingDns.SlidingWindow
