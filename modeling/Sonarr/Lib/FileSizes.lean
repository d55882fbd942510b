import Sonarr.Lib.Files
import Sonarr.Lib.Volume

/-! A file system of which only the sizes of the files are seen is a volume. -/
namespace Sonarr.Lib.Files

/-- The number of a file. -/
def numberOf : Option Node → Option Nat
  | some (.file i) => some i
  | _ => none

theorem numberOf_eq_some {n : Option Node} {i : Nat} :
    numberOf n = some i ↔ n = some (.file i) := by
  unfold numberOf
  split
  · simp
  · rename_i hno
    simpa using hno i

variable {π β : Type}

def sizes (fs : Files π β) : Volume π where
  file p := numberOf (fs.node p)
  size i := (fs.data i).length
  next := fs.next
  made p i h := fs.made p i (numberOf_eq_some.mp h)

theorem volume_eq {v w : Volume π} (hfile : v.file = w.file) (hsize : v.size = w.size)
    (hnext : v.next = w.next) : v = w := by
  cases v
  cases w
  cases hfile
  cases hsize
  cases hnext
  rfl

variable {fs fs' : Files π β} {p q : π} {i : Nat}

theorem sizes_fill (h : fs.node p = some (.file i)) (content : List β) :
    (fs.fill i content).sizes = fs.sizes.write p content.length := by
  have hfile : fs.sizes.file p = some i := numberOf_eq_some.mpr h
  unfold Volume.write
  rw [hfile]
  refine volume_eq rfl ?_ rfl
  funext j
  by_cases hj : j = i
  · subst hj
    simp [sizes, fill]
  · simp [sizes, fill, Function.update_of_ne hj]

variable [DecidableEq π]

theorem numberOf_update (f : π → Option Node) (p : π) (n : Option Node) :
    (fun q => numberOf (Function.update f p n q)) =
      Function.update (fun q => numberOf (f q)) p (numberOf n) := by
  funext q
  by_cases hq : q = p
  · subst hq
    simp
  · simp [Function.update_of_ne hq]

theorem sizes_mkdir (h : fs.mkdir p = .ok fs') : fs'.sizes = fs.sizes := by
  unfold mkdir at h
  split at h
  · rename_i hnone
    cases h
    refine volume_eq ?_ rfl rfl
    have hfile : numberOf (some .directory) = numberOf (fs.node p) := by rw [hnone]; rfl
    refine (numberOf_update fs.node p (some .directory)).trans ?_
    rw [hfile]
    exact Function.update_eq_self ..
  · cases h

theorem sizes_link (h : fs.link p q = .ok fs') : fs'.sizes = fs.sizes.link p q := by
  unfold link at h
  split at h
  · cases h
  · cases h
  · split at h
    · cases h
      exact volume_eq (numberOf_update ..) rfl rfl
    · cases h

theorem sizes_create (h : fs.create p = .ok (i, fs')) : fs'.sizes = fs.sizes.create p := by
  unfold create at h
  split at h
  · cases h
  · rename_i j hj
    cases h
    have hfile : fs.sizes.file p = some i := numberOf_eq_some.mpr hj
    rw [sizes_fill hj, Volume.create, Volume.touch, hfile]
    rfl
  · rename_i hnone
    cases h
    have hfile : fs.sizes.file p = none := by simp [sizes, hnone, numberOf]
    have hfresh : (fs.fresh p).node p = some (.file fs.next) := Function.update_self ..
    rw [sizes_fill hfresh, Volume.create, Volume.touch, hfile]
    refine congrArg (fun v : Volume π => v.write p 0) (volume_eq (numberOf_update ..) rfl rfl)

/-- What is read of a file that was opened first is all that is seen of it now. -/
theorem sizeAt_read {n : Node} {content : List β} (hp : fs.node p = some n)
    (hcreate : fs.create q = .ok (i, fs')) (hread : fs'.read n = .ok content) :
    fs'.sizes.sizeAt p = some (content.length : Int) := by
  obtain ⟨hnode, _, _, hi⟩ := create_ok hcreate
  cases n with
  | directory => cases hread
  | file j =>
    cases hread
    have hsame : fs'.node p = some (.file j) := by
      by_cases hpq : p = q
      · subst hpq
        -- the file itself is cut
        rcases hi with hi | rfl
        · rw [hnode, Function.update_self, ← hi, hp]
        · rw [create, hp] at hcreate
          cases hcreate
          exact hp
      · rw [hnode, Function.update_of_ne hpq, hp]
    have hfile : fs'.sizes.file p = some j := numberOf_eq_some.mpr hsame
    rw [Volume.sizeAt, hfile]
    rfl

theorem sizes_remove (h : fs.remove p = .ok fs') : fs'.sizes = fs.sizes.remove p := by
  unfold remove at h
  split at h
  · cases h
  · cases h
  · cases h
    exact volume_eq (numberOf_update ..) rfl rfl

theorem sizes_rename (h : fs.rename p q = .ok fs') : fs'.sizes = fs.sizes.rename p q := by
  unfold rename at h
  split at h
  · cases h
  · cases h
  · rename_i i hi
    have hp : fs.sizes.file p = some i := numberOf_eq_some.mpr hi
    unfold Volume.rename
    split at h
    · cases h
    · split at h
      · rename_i hsame
        cases h
        have hsame' : fs.sizes.file p = fs.sizes.file q := by
          change numberOf (fs.node p) = numberOf (fs.node q)
          rw [hsame]
        rw [if_pos hsame']
      · rename_i hother
        cases h
        have hother' : fs.sizes.file p ≠ fs.sizes.file q := by
          intro he
          rw [hp] at he
          exact hother ((numberOf_eq_some.mp he.symm).trans hi.symm)
        rw [if_neg hother']
        refine volume_eq ?_ rfl rfl
        refine (numberOf_update ..).trans ?_
        exact congrArg (fun f => Function.update f p none) (numberOf_update ..)

end Sonarr.Lib.Files
