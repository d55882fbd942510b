import Mathlib.Algebra.Ring.Int.Defs
import Mathlib.Data.List.Basic

namespace Sonarr.Lib

/-- Times, the newest first, that lie `gap` apart number at most one for each `gap`
of the window they fall in, and one more. -/
theorem length_of_spaced {times : List Int} (lo hi : Int)
    (h : times.Pairwise (fun newer older => older + gap ≤ newer)) (hgap : 0 ≤ gap)
    (hlo : ∀ t ∈ times, lo ≤ t) (hhi : ∀ t ∈ times, t ≤ hi) (hle : lo ≤ hi) :
    times.length * gap ≤ hi - lo + gap := by
  induction times generalizing hi with
  | nil =>
    simp only [List.length_nil, Int.natCast_zero, Int.zero_mul]
    omega
  | cons newest older ih =>
    obtain ⟨hfirst, hrest⟩ := List.pairwise_cons.mp h
    have hnewest := hhi newest (by simp)
    have hstart := hlo newest (by simp)
    rw [List.length_cons, Int.natCast_add, Int.natCast_one, Int.add_mul, Int.one_mul]
    -- the older times fall in the window that ends one gap before the newest
    cases older with
    | nil =>
      simp only [List.length_nil, Int.natCast_zero, Int.zero_mul]
      omega
    | cons second rest =>
      have hsecond := hfirst second (by simp)
      have hsecond' := hlo second (by simp)
      have hwindow : ∀ t ∈ second :: rest, t ≤ newest - gap := by
        intro t ht
        have := hfirst t ht
        omega
      have := ih (newest - gap) hrest (fun t ht => hlo t (by simp [ht])) hwindow (by omega)
      omega

end Sonarr.Lib
