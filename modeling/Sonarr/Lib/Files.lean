import Mathlib.Logic.Function.Basic

/-! A file system: names, the files that they are links to, and what the files hold. An open file
is known by its number, so it is read and written whatever its names have become. -/
namespace Sonarr.Lib

inductive Node
  | directory
  | file (i : Nat)
  deriving DecidableEq, Repr

/-- Several names may be links to one file. Files are numbered, and no name is a link to one that
is still to be made. -/
structure Files (π β : Type) where
  node : π → Option Node
  data : Nat → List β
  next : Nat
  made : ∀ p i, node p = some (.file i) → i < next

namespace Files

/-- What is seen under a name. -/
inductive Entry (β : Type)
  | directory
  | bytes (content : List β)
  deriving DecidableEq, Repr

variable {π β : Type} {fs fs' : Files π β} {p q : π} {i : Nat}

def entry (fs : Files π β) (p : π) : Option (Entry β) :=
  match fs.node p with
  | none => none
  | some .directory => some .directory
  | some (.file i) => some (.bytes (fs.data i))

/-- The file `p` has no other name. -/
def Only (fs : Files π β) (p : π) : Prop :=
  ∀ q i, fs.node p = some (.file i) → fs.node q = some (.file i) → q = p

theorem entry_file (h : fs.node p = some (.file i)) : fs.entry p = some (.bytes (fs.data i)) := by
  simp [entry, h]

/-- A name shows the same if it is a link to the same file and that has not been written to. -/
theorem entry_congr (hnode : fs'.node q = fs.node q)
    (hdata : ∀ i, fs.node q = some (.file i) → fs'.data i = fs.data i) :
    fs'.entry q = fs.entry q := by
  unfold entry
  rw [hnode]
  split
  · rfl
  · rfl
  · rename_i i hi
    rw [hdata i hi]

/-- The file `i` now holds `content`. -/
def fill (fs : Files π β) (i : Nat) (content : List β) : Files π β :=
  { fs with data := Function.update fs.data i content }

theorem fill_fill (fs : Files π β) (i : Nat) (a b : List β) :
    (fs.fill i a).fill i b = fs.fill i b := by
  simp [fill]

theorem fill_self (fs : Files π β) (i : Nat) : fs.fill i (fs.data i) = fs := by
  simp [fill]

/-- `chunk` in place of what is at `pos`; a gap before it is filled up. -/
def splice [Inhabited β] (old : List β) (pos : Nat) : List β → List β
  | [] => old
  | chunk => (old ++ List.replicate (pos - old.length) default).take pos ++ chunk ++
      old.drop (pos + chunk.length)

/-- Writes into an open file. -/
def writeAt [Inhabited β] (fs : Files π β) (i pos : Nat) (chunk : List β) : Files π β :=
  fs.fill i (splice (fs.data i) pos chunk)

theorem splice_end [Inhabited β] (old chunk : List β) :
    splice old old.length chunk = old ++ chunk := by
  unfold splice
  split <;> simp

theorem Only.ne (h : fs.Only p) (hp : fs.node p = some (.file i)) (hq : q ≠ p) :
    fs.node q ≠ some (.file i) :=
  fun he => hq (h q i hp he)

theorem Only.of_none (h : fs.node p = none) : fs.Only p := by
  intro q i hp _
  rw [h] at hp
  cases hp

/-- Names that are still links to files were so before. -/
theorem Only.mono (h : fs.Only p)
    (hnode : ∀ q i, fs'.node q = some (.file i) → fs.node q = some (.file i)) : fs'.Only p :=
  fun q i hp hq => h q i (hnode p i hp) (hnode q i hq)

def noFile : String := "no such file or directory"

/-- Opens what is there to read it. -/
def openFile (fs : Files π β) (p : π) : Except String Node :=
  match fs.node p with
  | none => .error noFile
  | some n => .ok n

/-- All that an open file holds. -/
def read (fs : Files π β) : Node → Except String (List β)
  | .directory => .error "is a directory"
  | .file i => .ok (fs.data i)

theorem openFile_ok (h : fs.openFile p = .ok n) : fs.node p = some n := by
  unfold openFile at h
  split at h
  · cases h
  · rename_i hn
    cases h
    exact hn

variable [DecidableEq π]

/-- `p` becomes a name of `n`. -/
def name (fs : Files π β) (p : π) (n : Option Node) (h : ∀ i, n = some (.file i) → i < fs.next) :
    Files π β where
  node := Function.update fs.node p n
  data := fs.data
  next := fs.next
  made := by
    intro q i hq
    by_cases hqp : q = p
    · subst hqp
      rw [Function.update_self] at hq
      exact h i hq
    · rw [Function.update_of_ne hqp] at hq
      exact fs.made q i hq

/-! The calls, each refused where the names do not allow it. -/

def mkdir (fs : Files π β) (p : π) : Except String (Files π β) :=
  match fs.node p with
  | none => .ok (fs.name p (some .directory) (by simp))
  | some _ => .error "file exists"

/-- A link does not take the place of what is there. -/
def link (fs : Files π β) (src dst : π) : Except String (Files π β) :=
  match fs.node src with
  | none => .error noFile
  | some .directory => .error "operation not permitted"
  | some (.file _) => match fs.node dst with
    | none => .ok (fs.name dst (fs.node src) (fs.made src))
    | some _ => .error "file exists"

/-- A file for a name that has none. -/
def fresh (fs : Files π β) (p : π) : Files π β :=
  ({ fs with
      next := fs.next + 1
      made := fun q i h => Nat.lt_succ_of_lt (fs.made q i h) } : Files π β).name p
    (some (.file fs.next)) (fun i h => by cases h; exact Nat.lt_succ_self _)

/-- Opens a new file, or the one that is there cut to nothing. -/
def create (fs : Files π β) (p : π) : Except String (Nat × Files π β) :=
  match fs.node p with
  | some .directory => .error "is a directory"
  | some (.file i) => .ok (i, fs.fill i [])
  | none => .ok (fs.next, (fs.fresh p).fill fs.next [])

/-- Takes away a file's name. -/
def remove (fs : Files π β) (p : π) : Except String (Files π β) :=
  match fs.node p with
  | none => .error noFile
  | some .directory => .error "is a directory"
  | some (.file _) => .ok (fs.name p none (by simp))

/-- A file takes the place of another one. Two names of one file stay as they are. -/
def rename (fs : Files π β) (p q : π) : Except String (Files π β) :=
  match fs.node p with
  | none => .error noFile
  | some .directory => .error "is a directory"
  | some (.file _) =>
    if fs.node q = some .directory then .error "file exists"
    else if fs.node q = fs.node p then .ok fs
    else .ok ((fs.name q (fs.node p) (fs.made p)).name p none (by simp))

/-! What a call has done when it was not refused. -/

theorem mkdir_ok (h : fs.mkdir p = .ok fs') : fs.node p = none ∧
    fs'.node = Function.update fs.node p (some .directory) ∧ fs'.data = fs.data := by
  unfold mkdir at h
  split at h
  · rename_i hnone
    cases h
    exact ⟨hnone, rfl, rfl⟩
  · cases h

theorem link_ok (h : fs.link p q = .ok fs') : fs.node q = none ∧ ∃ i, fs.node p = some (.file i) ∧
    fs'.node = Function.update fs.node q (some (.file i)) ∧ fs'.data = fs.data := by
  unfold link at h
  split at h
  · cases h
  · cases h
  · rename_i i hi
    split at h
    · rename_i hq
      cases h
      refine ⟨hq, i, hi, ?_, rfl⟩
      rw [← hi]
      rfl
    · cases h

theorem create_ok (h : fs.create p = .ok (i, fs')) :
    fs'.node = Function.update fs.node p (some (.file i)) ∧
      fs'.data = Function.update fs.data i [] ∧ fs.next ≤ fs'.next ∧
      (fs.node p = some (.file i) ∨ i = fs.next) := by
  unfold create at h
  split at h
  · cases h
  · rename_i j hj
    cases h
    refine ⟨?_, rfl, Nat.le_refl _, .inl hj⟩
    rw [← hj, Function.update_eq_self]
    rfl
  · cases h
    exact ⟨rfl, rfl, Nat.le_succ _, .inr rfl⟩

theorem remove_ok (h : fs.remove p = .ok fs') :
    fs'.node = Function.update fs.node p none ∧ fs'.data = fs.data ∧ fs'.next = fs.next := by
  unfold remove at h
  split at h
  · cases h
  · cases h
  · cases h
    exact ⟨rfl, rfl, rfl⟩

/-- A file that has no other name takes the place of what was there. -/
theorem rename_ok (h : fs.rename p q = .ok fs') (honly : fs.Only p) (hne : q ≠ p) :
    ∃ i, fs.node p = some (.file i) ∧ fs'.data = fs.data ∧ fs'.next = fs.next ∧
      fs'.node = Function.update (Function.update fs.node q (some (.file i))) p none := by
  unfold rename at h
  split at h
  · cases h
  · cases h
  · rename_i i hi
    split at h
    · cases h
    · split at h
      · rename_i hsame
        exact absurd (hsame.trans hi) (honly.ne hi hne)
      · cases h
        refine ⟨i, hi, rfl, rfl, ?_⟩
        rw [← hi]
        rfl

theorem Only.remove (h : fs.remove p = .ok fs') : fs'.Only p := by
  apply Only.of_none
  rw [(remove_ok h).1, Function.update_self]

/-- Opening a file to write touches no file that has another name. -/
theorem Only.ne_created (honly : fs.Only p) (h : fs.create p = .ok (i, fs')) (hq : q ≠ p) :
    fs.node q ≠ some (.file i) := by
  intro hi
  rcases (create_ok h).2.2.2 with hp | rfl
  · exact honly.ne hp hq hi
  · exact Nat.lt_irrefl _ (fs.made q _ hi)

theorem Only.create (honly : fs.Only p) (h : fs.create p = .ok (i, fs')) : fs'.Only p := by
  have hnode := (create_ok h).1
  intro q j hp hq
  by_contra hqp
  rw [hnode, Function.update_self] at hp
  cases hp
  rw [hnode, Function.update_of_ne hqp] at hq
  exact honly.ne_created h hqp hq

end Files

end Sonarr.Lib
