import Sonarr.Lib.Files

/-! Symbolic links: files that hold a name. A file is opened where its links lead, but linked,
renamed and removed as what it is. -/
namespace Sonarr.Lib

/-- `target` is the name that a file holds if it is a symbolic link. -/
structure Linked (π β : Type) where
  files : Files π β
  target : Nat → Option π

namespace Linked

/-- What is seen under a name without following it. -/
inductive Entry (π β : Type)
  | plain (e : Files.Entry β)
  | symlink (target : π)
  deriving DecidableEq, Repr

variable {π β : Type} {fs fs' : Linked π β} {links links' : π → Option π} {p q d : π} {i n : Nat}

def ofFiles (files : Files π β) : Linked π β := ⟨files, fun _ => none⟩

@[simp] theorem files_ofFiles (files : Files π β) : (ofFiles files).files = files := rfl

@[simp] theorem mk_ofFiles (files files' : Files π β) :
    (⟨files', (ofFiles files).target⟩ : Linked π β) = ofFiles files' := rfl

/-- Where a symbolic link points. -/
def linkAt (fs : Linked π β) (p : π) : Option π :=
  match fs.files.node p with
  | some (.file i) => fs.target i
  | _ => none

def entry (fs : Linked π β) (p : π) : Option (Entry π β) :=
  match fs.linkAt p with
  | some t => some (.symlink t)
  | none => (fs.files.entry p).map .plain

theorem linkAt_file (h : fs.files.node p = some (.file i)) : fs.linkAt p = fs.target i := by
  simp [linkAt, h]

theorem linkAt_congr (hnode : fs'.files.node q = fs.files.node q)
    (htarget : ∀ i, fs.files.node q = some (.file i) → fs'.target i = fs.target i) :
    fs'.linkAt q = fs.linkAt q := by
  unfold linkAt
  rw [hnode]
  split
  · rename_i i hi
    exact htarget i hi
  · rfl

theorem entry_congr (hlink : fs'.linkAt q = fs.linkAt q)
    (hentry : fs'.files.entry q = fs.files.entry q) : fs'.entry q = fs.entry q := by
  unfold entry
  rw [hlink, hentry]

section Follow
variable (locate : π → π → π)

/-- Where a name leads over at most `n` links. What a link holds is read from where the link is. -/
def follow (links : π → Option π) (n : Nat) (p : π) : Except String π :=
  match links p with
  | none => .ok p
  | some t => match n with
    | 0 => .error "too many levels of symbolic links"
    | n + 1 => follow links n (locate p t)

def resolve (fs : Linked π β) (p : π) : Except String π :=
  follow locate fs.linkAt 40 p

def stat (fs : Linked π β) (p : π) : Option Node :=
  match fs.resolve locate p with
  | .ok q => fs.files.node q
  | .error _ => none

def openFile (fs : Linked π β) (p : π) : Except String Node :=
  match fs.resolve locate p with
  | .ok q => fs.files.openFile q
  | .error e => .error e

/-- A file that is made is no symbolic link, and neither is one that is opened. -/
def create [DecidableEq π] (fs : Linked π β) (p : π) : Except String (Nat × Linked π β) :=
  match fs.resolve locate p with
  | .error e => .error e
  | .ok q => match fs.files.create q with
    | .error e => .error e
    | .ok (i, files) => .ok (i, ⟨files, Function.update fs.target i none⟩)

/-- What is read under a name, where it leads to a file. -/
def contents (fs : Linked π β) (p : π) : Option (List β) :=
  match fs.resolve locate p with
  | .error _ => none
  | .ok q => match fs.files.entry q with
    | some (.bytes b) => some b
    | _ => none

variable {locate}

theorem follow_none (h : links p = none) : follow locate links n p = .ok p := by
  unfold follow
  rw [h]

theorem follow_some (h : links p = some q) :
    follow locate links (n + 1) p = follow locate links n (locate p q) := by
  rw [follow, h]

/-- A way that does not end at `d` is the same whatever `d` becomes. -/
theorem follow_congr (hlinks : ∀ x, x ≠ d → links' x = links x) (hd : links d = none)
    (h : follow locate links n p = .ok q) (hq : q ≠ d) : follow locate links' n p = .ok q := by
  fun_induction follow locate links n p with
  | case1 n p hp =>
    cases h
    exact follow_none ((hlinks _ hq).trans hp)
  | case2 => cases h
  | case3 p t hp n ih =>
    have hpd : p ≠ d := by
      rintro rfl
      rw [hd] at hp
      cases hp
    rw [follow_some ((hlinks p hpd).trans hp)]
    exact ih h

/-- Once `d` is no link, a way ends where it did or at `d`. -/
theorem follow_cut (hlinks : ∀ x, x ≠ d → links' x = links x) (hd : links' d = none)
    (h : follow locate links n p = .ok q) :
    follow locate links' n p = .ok q ∨ follow locate links' n p = .ok d := by
  by_cases hpd : p = d
  · subst hpd
    exact .inr (follow_none hd)
  fun_induction follow locate links n p with
  | case1 n p hp =>
    cases h
    exact .inl (follow_none ((hlinks _ hpd).trans hp))
  | case2 => cases h
  | case3 p t hp n ih =>
    rw [follow_some ((hlinks p hpd).trans hp)]
    by_cases hnext : locate p t = d
    · rw [hnext]
      exact .inr (follow_none hd)
    · exact ih h hnext

theorem contents_eq_some {b : List β} : fs.contents locate p = some b ↔
    ∃ q, fs.resolve locate p = .ok q ∧ fs.files.entry q = some (.bytes b) := by
  unfold contents
  cases fs.resolve locate p with
  | error e => simp
  | ok q =>
    simp only [Except.ok.injEq, exists_eq_left']
    split
    · rename_i c hc
      simp [hc]
    · rename_i hother
      simpa using hother b

theorem contents_congr (hlink : fs'.linkAt = fs.linkAt)
    (hentry : ∀ q b, fs.resolve locate p = .ok q →
      (fs'.files.entry q = some (.bytes b) ↔ fs.files.entry q = some (.bytes b))) :
    fs'.contents locate p = fs.contents locate p := by
  ext b
  simp only [contents_eq_some, resolve, hlink]
  exact exists_congr fun q => and_congr_right (hentry q b)

theorem resolve_plain (h : fs.linkAt p = none) : fs.resolve locate p = .ok p :=
  follow_none h

theorem contents_plain {b : List β} (h : fs.linkAt p = none)
    (hb : fs.files.entry p = some (.bytes b)) : fs.contents locate p = some b :=
  contents_eq_some.mpr ⟨p, resolve_plain h, hb⟩

theorem openFile_ok {node : Node} (h : fs.openFile locate p = .ok node) :
    ∃ q, fs.resolve locate p = .ok q ∧ fs.files.node q = some node := by
  unfold openFile at h
  split at h
  · rename_i q hq
    exact ⟨q, hq, Files.openFile_ok h⟩
  · cases h

theorem resolve_ofFiles (files : Files π β) (p : π) : (ofFiles files).resolve locate p = .ok p := by
  refine resolve_plain ?_
  unfold linkAt
  split
  · rfl
  · rfl

theorem openFile_ofFiles {files : Files π β} {node : Node} (h : files.node p = some node) :
    (ofFiles files).openFile locate p = .ok node := by
  rw [openFile, resolve_ofFiles]
  simp [Files.openFile, ofFiles, h]

variable [DecidableEq π]

theorem create_ok (hp : fs.linkAt p = none) (h : fs.create locate p = .ok (i, fs')) :
    fs.files.create p = .ok (i, fs'.files) ∧ fs'.target = Function.update fs.target i none := by
  unfold create at h
  rw [resolve_plain hp] at h
  dsimp only at h
  split at h
  · cases h
  · rename_i hcreate
    cases h
    exact ⟨hcreate, rfl⟩

theorem create_ofFiles {files files' : Files π β} (h : files.create p = .ok (i, files')) :
    (ofFiles files).create locate p = .ok (i, ofFiles files') := by
  have htarget : Function.update (ofFiles files).target i none = fun _ => none :=
    Function.update_eq_self i (fun _ : Nat => (none : Option π))
  simp only [create, resolve_ofFiles, files_ofFiles, h, htarget]
  rfl

end Follow

end Linked

end Sonarr.Lib
