import Mathlib.Logic.Function.Basic

namespace Sonarr.Lib

/-- The names of a file system and the files they are links to. Several names may be
links to one file; files are numbered, and no name is a link to one that is still to be
made. -/
structure Volume (π : Type) where
  file : π → Option Nat
  size : Nat → Int
  next : Nat
  made : ∀ p i, file p = some i → i < next

namespace Volume
variable {π : Type}

def sizeAt (v : Volume π) (p : π) : Option Int := (v.file p).map v.size

/-- The file named `p` now holds `n` bytes. -/
def write (v : Volume π) (p : π) (n : Int) : Volume π :=
  match v.file p with
  | none => v
  | some i => { v with size := Function.update v.size i n }

/-- The names are links to one file. -/
def Shares (v : Volume π) (p q : π) : Prop := v.file p ≠ none ∧ v.file p = v.file q

instance (v : Volume π) (p q : π) : Decidable (v.Shares p q) :=
  inferInstanceAs (Decidable (_ ∧ _))

/-- A file of `n` bytes that is not the one that `p` is a name of. -/
def Apart (v : Volume π) (p q : π) (n : Int) : Prop := v.sizeAt q = some n ∧ ¬ v.Shares p q

variable {v : Volume π} {p q dst : π} {n : Int}

@[simp] theorem file_write (v : Volume π) (p : π) (n : Int) : (v.write p n).file = v.file := by
  unfold write
  split <;> rfl

theorem sizeAt_write (h : v.file p ≠ none) : (v.write p n).sizeAt p = some n := by
  obtain ⟨i, hi⟩ := Option.ne_none_iff_exists'.mp h
  simp [sizeAt, write, hi]

theorem Apart.ne (h : v.Apart p q n) : q ≠ p := by
  rintro rfl
  refine h.2 ⟨?_, rfl⟩
  intro hnone
  have hsize := h.1
  simp [sizeAt, hnone] at hsize

theorem Apart.write (h : v.Apart p q n) (m : Int) : (v.write p m).Apart p q n := by
  refine ⟨?_, ?_⟩
  · unfold Volume.write
    split
    · exact h.1
    · rename_i i hi
      -- The file written to is another one.
      have hsize := h.1
      unfold sizeAt at hsize ⊢
      obtain ⟨j, hj, hn⟩ := Option.map_eq_some_iff.mp hsize
      have hji : j ≠ i := by
        rintro rfl
        exact h.2 ⟨by simp [hi], hi.trans hj.symm⟩
      simp [hj, Function.update_of_ne hji, hn]
  · simpa only [Shares, file_write] using h.2

variable [DecidableEq π]

/-- `p` becomes a name of what `link` is. -/
def name (v : Volume π) (p : π) (link : Option Nat) (h : ∀ i, link = some i → i < v.next) :
    Volume π where
  file := Function.update v.file p link
  size := v.size
  next := v.next
  made := by
    intro q i hq
    by_cases hqp : q = p
    · subst hqp
      rw [Function.update_self] at hq
      exact h i hq
    · rw [Function.update_of_ne hqp] at hq
      exact v.made q i hq

def link (v : Volume π) (src dst : π) : Volume π := v.name dst (v.file src) (v.made src)

def remove (v : Volume π) (p : π) : Volume π := v.name p none (by simp)

/-- Two names of one file stay as they are. -/
def rename (v : Volume π) (p q : π) : Volume π :=
  if v.file p = v.file q then v else (v.link p q).remove p

/-- Makes a file for a name that has none. -/
def touch (v : Volume π) (p : π) : Volume π :=
  match v.file p with
  | some _ => v
  | none => ({ v with
      next := v.next + 1
      made := fun q i h => Nat.lt_succ_of_lt (v.made q i h) } : Volume π).name p (some v.next)
        (fun i h => by cases h; exact Nat.lt_succ_self _)

/-- A new file, or the one that is there cut to nothing. -/
def create (v : Volume π) (p : π) : Volume π := (v.touch p).write p 0

theorem sizeAt_name_ne (h : q ≠ p) {link : Option Nat} {hl} :
    (v.name p link hl).sizeAt q = v.sizeAt q := by
  simp [sizeAt, name, Function.update_of_ne h]

theorem sizeAt_link (v : Volume π) (src dst : π) : (v.link src dst).sizeAt dst = v.sizeAt src := by
  simp [sizeAt, link, name]

theorem sizeAt_rename (v : Volume π) (p q : π) : (v.rename p q).sizeAt q = v.sizeAt p := by
  unfold rename
  split
  · rename_i hsame
    simp [sizeAt, hsame]
  · rename_i hother
    have hne : q ≠ p := fun he => hother (by rw [he])
    rw [remove, sizeAt_name_ne hne, sizeAt_link]

theorem file_touch (v : Volume π) (p : π) : (v.touch p).file p ≠ none := by
  unfold touch
  split
  · rename_i i hi
    simp [hi]
  · simp [name]

theorem file_create (v : Volume π) (p : π) : (v.create p).file p ≠ none := by
  rw [create, file_write]
  exact file_touch v p

namespace Apart

theorem link (h : v.Apart p q n) (hp : p ≠ dst) (hq : q ≠ dst) (src : π) :
    (v.link src dst).Apart p q n := by
  refine ⟨?_, ?_⟩
  · rw [Volume.link, sizeAt_name_ne hq]
    exact h.1
  · simpa only [Shares, Volume.link, name, Function.update_of_ne hp, Function.update_of_ne hq]
      using h.2

theorem remove (h : v.Apart p q n) : (v.remove p).Apart p q n := by
  refine ⟨?_, ?_⟩
  · rw [Volume.remove, sizeAt_name_ne h.ne]
    exact h.1
  · rintro ⟨hsome, _⟩
    simp [Volume.remove, name] at hsome

theorem touch (h : v.Apart p q n) : (v.touch p).Apart p q n := by
  unfold Volume.touch
  split
  · exact h
  · refine ⟨?_, ?_⟩
    · rw [sizeAt_name_ne h.ne]
      exact h.1
    · rintro ⟨_, hsame⟩
      simp only [name, Function.update_self, Function.update_of_ne h.ne] at hsame
      exact Nat.lt_irrefl _ (v.made q _ hsame.symm)

theorem create (h : v.Apart p q n) : (v.create p).Apart p q n := h.touch.write 0

theorem rename (h : v.Apart p q n) (hq : q ≠ dst) : (v.rename p dst).Apart p q n := by
  unfold Volume.rename
  split
  · exact h
  · refine ⟨?_, ?_⟩
    · rw [Volume.remove, sizeAt_name_ne h.ne, Volume.link, sizeAt_name_ne hq]
      exact h.1
    · rintro ⟨hsome, _⟩
      simp [Volume.remove, name] at hsome

end Apart

end Volume

end Sonarr.Lib
