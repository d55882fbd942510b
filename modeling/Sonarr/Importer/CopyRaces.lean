import Sonarr.Importer.FileTransfer
import Sonarr.Lib.Machine

/-! Two calls of `copyFile` for one destination, call by call. -/
namespace Sonarr.FileTransfer
open Lib

/-- How far a call has come, with the numbers of the files that it has open. -/
inductive Stage (β : Type)
  | start
  | opened (input : Node)
  | reading (input : Node) (out pos : Nat)
  | writing (input : Node) (out pos : Nat) (chunk : List β)
  | copied
  | closed
  | removing (e : String)
  | done (result : Except String Unit)
  deriving DecidableEq

/-- What comes of the next call: it is answered, with at most `size + 1` bytes if it reads, or it
is refused, after some bytes if it writes. -/
inductive Event
  | proceed (size : Nat)
  | refuse (written : Nat) (e : String)
  deriving DecidableEq

section Calls
variable {β : Type} [Inhabited β]

/-- The next call of `copyFile`. Both files are read and written from their starts, so one position
is enough. -/
def advance (src dst : String) (fs : Files String β) :
    Stage β → Event → Option (Files String β × Stage β)
  | .start, .proceed _ => match fs.openFile src with
    | .error e => some (fs, .done (.error e))
    | .ok input => some (fs, .opened input)
  | .start, .refuse _ e => some (fs, .done (.error e))
  | .opened input, .proceed _ => match fs.create (dst ++ ".partial") with
    | .error e => some (fs, .done (.error e))
    | .ok (out, fs) => some (fs, .reading input out 0)
  | .opened _, .refuse _ e => some (fs, .done (.error e))
  | .reading input out pos, .proceed size => match fs.read input with
    | .error e => some (fs, .removing e)
    | .ok content =>
      if content.length ≤ pos then some (fs, .copied)
      else some (fs, .writing input out pos ((content.drop pos).take (size + 1)))
  | .reading .., .refuse _ e => some (fs, .removing e)
  | .writing input out pos chunk, .proceed _ =>
    some (fs.writeAt out pos chunk, .reading input out (pos + chunk.length))
  | .writing _ out pos chunk, .refuse written e =>
    some (fs.writeAt out pos (chunk.take written), .removing e)
  | .copied, .proceed _ => some (fs, .closed)
  | .copied, .refuse _ e => some (fs, .removing e)
  | .closed, .proceed _ => match fs.rename (dst ++ ".partial") dst with
    | .error e => some (fs, .done (.error e))
    | .ok fs => some (fs, .done (.ok ()))
  | .closed, .refuse _ e => some (fs, .done (.error e))
  | .removing e, .proceed _ => match fs.remove (dst ++ ".partial") with
    | .error _ => some (fs, .done (.error e))
    | .ok fs => some (fs, .done (.error e))
  | .removing e, .refuse .. => some (fs, .done (.error e))
  | .done _, _ => none

structure Race (β : Type) where
  files : Files String β
  stage : Bool → Stage β

def Race.start (fs : Files String β) : Race β := ⟨fs, fun _ => .start⟩

/-- One of the two goes on. -/
def step (src : Bool → String) (dst : String) (s : Race β) (a : Bool × Event) : Option (Race β) :=
  (advance (src a.1) dst s.files (s.stage a.1) a.2).map
    (fun next => ⟨next.1, Function.update s.stage a.1 next.2⟩)

namespace Stage

/-- Between the creation of the copy and its renaming. -/
def working : Stage β → Bool
  | .reading .. | .writing .. | .copied | .closed => true
  | _ => false

def failed : Stage β → Bool
  | .removing _ | .done (.error _) => true
  | _ => false

end Stage

/-- The ways to go on. -/
inductive Advance (src dst : String) (fs : Files String β) :
    Stage β → Files String β → Stage β → Prop
  | opens (hnode : fs.node src = some input) : Advance src dst fs .start fs (.opened input)
  | creates (hcreate : fs.create (dst ++ ".partial") = .ok (out, fs')) :
      Advance src dst fs (.opened input) fs' (.reading input out 0)
  | reads (hmore : pos < (fs.data i).length) : Advance src dst fs (.reading (.file i) out pos) fs
      (.writing (.file i) out pos (((fs.data i).drop pos).take (size + 1)))
  | ends (hend : (fs.data i).length ≤ pos) :
      Advance src dst fs (.reading (.file i) out pos) fs .copied
  | writes : Advance src dst fs (.writing input out pos chunk) (fs.writeAt out pos chunk)
      (.reading input out (pos + chunk.length))
  | closes : Advance src dst fs .copied fs .closed
  | renames (hrename : fs.rename (dst ++ ".partial") dst = .ok fs') :
      Advance src dst fs .closed fs' (.done (.ok ()))
  | openFails : Advance src dst fs .start fs (.done (.error e))
  | createFails : Advance src dst fs (.opened input) fs (.done (.error e))
  | readFails : Advance src dst fs (.reading input out pos) fs (.removing e)
  | writeFails : Advance src dst fs (.writing input out pos chunk)
      (fs.writeAt out pos (chunk.take written)) (.removing e)
  | closeFails : Advance src dst fs .copied fs (.removing e)
  | renameFails : Advance src dst fs .closed fs (.done (.error e))
  | removes (hremove : fs.remove (dst ++ ".partial") = .ok fs') :
      Advance src dst fs (.removing e) fs' (.done (.error e))
  | removeFails : Advance src dst fs (.removing e) fs (.done (.error e))

theorem advance_spec {fs : Files String β} {st : Stage β}
    (h : advance src dst fs st ev = some (fs', st')) : Advance src dst fs st fs' st' := by
  cases st with
  | start =>
    cases ev with
    | proceed size =>
      simp only [advance] at h
      split at h
      · cases h
        exact .openFails
      · rename_i hopen
        cases h
        exact .opens (Files.openFile_ok hopen)
    | refuse written e =>
      cases h
      exact .openFails
  | opened input =>
    cases ev with
    | proceed size =>
      simp only [advance] at h
      split at h
      · cases h
        exact .createFails
      · rename_i hcreate
        cases h
        exact .creates hcreate
    | refuse written e =>
      cases h
      exact .createFails
  | reading input out pos =>
    cases ev with
    | proceed size =>
      simp only [advance] at h
      split at h
      · cases h
        exact .readFails
      · rename_i content hread
        cases input with
        | directory => cases hread
        | file i =>
          cases hread
          split at h
          · rename_i hend
            cases h
            exact .ends hend
          · rename_i hmore
            cases h
            exact .reads (Nat.lt_of_not_le hmore)
    | refuse written e =>
      cases h
      exact .readFails
  | writing input out pos chunk =>
    cases ev with
    | proceed size =>
      cases h
      exact .writes
    | refuse written e =>
      cases h
      exact .writeFails
  | copied =>
    cases ev with
    | proceed size =>
      cases h
      exact .closes
    | refuse written e =>
      cases h
      exact .closeFails
  | closed =>
    cases ev with
    | proceed size =>
      simp only [advance] at h
      split at h
      · cases h
        exact .renameFails
      · rename_i hrename
        cases h
        exact .renames hrename
    | refuse written e =>
      cases h
      exact .renameFails
  | removing e =>
    cases ev with
    | proceed size =>
      simp only [advance] at h
      split at h
      · cases h
        exact .removeFails
      · rename_i hremove
        cases h
        exact .removes hremove
    | refuse written e' =>
      cases h
      exact .removeFails
  | done result => cases h

end Calls

theorem one_of_two (j k : Bool) : j = k ∨ j = !k := by
  cases j <;> cases k <;> simp

section Good
variable {β : Type} {fs fs' : Files String β} {st : Stage β} {src : Bool → String} {dst : String}
  {good : List β → Prop}

/-- A file that is not the one beside the destination. -/
def Safe (dst : String) (fs : Files String β) (i : Nat) : Prop :=
  i < fs.next ∧ fs.node (dst ++ ".partial") ≠ some (.file i)

theorem safe_of_name (honly : fs.Only (dst ++ ".partial")) (hq : q ≠ dst ++ ".partial")
    (hi : fs.node q = some (.file i)) : Safe dst fs i :=
  ⟨fs.made q i hi, fun hp => honly.ne hp hq hi⟩

/-- What the files hold for a call that will not fail: its copy is a beginning of what it reads,
and in the end all of it. -/
def Holds (good : List β → Prop) (dst : String) (fs : Files String β) : Stage β → Prop
  | .opened input => ∀ i, input = .file i → Safe dst fs i ∧ good (fs.data i)
  | .reading input out pos => fs.node (dst ++ ".partial") = some (.file out) ∧
      (fs.data out).length = pos ∧ ∀ i, input = .file i → Safe dst fs i ∧ good (fs.data i) ∧
        fs.data out <+: fs.data i
  | .writing input out pos chunk => fs.node (dst ++ ".partial") = some (.file out) ∧
      (fs.data out).length = pos ∧ ∀ i, input = .file i → Safe dst fs i ∧ good (fs.data i) ∧
        fs.data out ++ chunk <+: fs.data i
  | .copied | .closed => ∃ out, fs.node (dst ++ ".partial") = some (.file out) ∧ good (fs.data out)
  | .done (.ok _) => ∃ i, fs.node dst = some (.file i) ∧ good (fs.data i)
  | .start | .removing _ | .done (.error _) => True

/-- Every source that is there can be copied. -/
def Sources (good : List β → Prop) (src : Bool → String) (fs : Files String β) : Prop :=
  ∀ k i, fs.node (src k) = some (.file i) → good (fs.data i)

structure Sound (good : List β → Prop) (src : Bool → String) (dst : String) (s : Race β) : Prop where
  sources : Sources good src s.files
  stages : ∀ k, Holds good dst s.files (s.stage k)
  alone : ∀ k, (s.stage k).working = true → (s.stage (!k)).working = false

/-- A change that spares all files but the copy, and puts only good ones in the destination. -/
structure Spares (good : List β → Prop) (src : Bool → String) (dst : String)
    (fs fs' : Files String β) : Prop where
  safe : ∀ i, Safe dst fs i → Safe dst fs' i ∧ fs'.data i = fs.data i
  target : (∃ i, fs.node dst = some (.file i) ∧ good (fs.data i)) →
    ∃ i, fs'.node dst = some (.file i) ∧ good (fs'.data i)
  sources : Sources good src fs → Sources good src fs'

theorem Spares.refl (good : List β → Prop) (src : Bool → String) (dst : String)
    (fs : Files String β) : Spares good src dst fs fs :=
  ⟨fun _ h => ⟨h, rfl⟩, id, id⟩

theorem Spares.of_names (honly : fs.Only (dst ++ ".partial"))
    (hsrc : ∀ k, src k ≠ dst ++ ".partial")
    (hsafe : ∀ i, Safe dst fs i → Safe dst fs' i ∧ fs'.data i = fs.data i)
    (hnames : ∀ q, q ≠ dst ++ ".partial" → fs'.node q = fs.node q) :
    Spares good src dst fs fs' := by
  refine ⟨hsafe, ?_, ?_⟩
  · rintro ⟨i, hi, hgood⟩
    have hsame := (hsafe i (safe_of_name honly (partial_ne dst) hi)).2
    exact ⟨i, by rw [hnames dst (partial_ne dst), hi], by rw [hsame]; exact hgood⟩
  · intro h k i hi
    rw [hnames _ (hsrc k)] at hi
    rw [(hsafe i (safe_of_name honly (hsrc k) hi)).2]
    exact h k i hi

theorem Safe.ne_created (hi : Safe dst fs i)
    (hcreate : fs.create (dst ++ ".partial") = .ok (out, fs')) : i ≠ out := by
  obtain ⟨_, _, _, hout⟩ := Files.create_ok hcreate
  rintro rfl
  rcases hout with hout | rfl
  · exact hi.2 hout
  · exact Nat.lt_irrefl _ hi.1

theorem Spares.create (honly : fs.Only (dst ++ ".partial"))
    (hsrc : ∀ k, src k ≠ dst ++ ".partial")
    (hcreate : fs.create (dst ++ ".partial") = .ok (out, fs')) : Spares good src dst fs fs' := by
  obtain ⟨hnode, hdata, hnext, _⟩ := Files.create_ok hcreate
  refine .of_names honly hsrc ?_ (fun q hq => by rw [hnode, Function.update_of_ne hq])
  intro i hi
  have hne := hi.ne_created hcreate
  refine ⟨⟨Nat.lt_of_lt_of_le hi.1 hnext, ?_⟩, by rw [hdata, Function.update_of_ne hne]⟩
  rw [hnode, Function.update_self]
  simpa using hne.symm

/-- A good copy is renamed. -/
theorem Spares.rename (honly : fs.Only (dst ++ ".partial"))
    (hrename : fs.rename (dst ++ ".partial") dst = .ok fs')
    (hgood : ∃ out, fs.node (dst ++ ".partial") = some (.file out) ∧ good (fs.data out)) :
    Spares good src dst fs fs' ∧ ∃ i, fs'.node dst = some (.file i) ∧ good (fs'.data i) := by
  obtain ⟨i, hi, hdata, hnext, hnode⟩ := Files.rename_ok hrename honly (partial_ne dst)
  obtain ⟨out, hout, hgood⟩ := hgood
  have hsame : out = i := by
    rw [hi] at hout
    cases hout
    rfl
  subst hsame
  have hdst : ∃ i, fs'.node dst = some (.file i) ∧ good (fs'.data i) := by
    refine ⟨out, ?_, by rw [hdata]; exact hgood⟩
    rw [hnode, Function.update_of_ne (partial_ne dst), Function.update_self]
  refine ⟨⟨?_, fun _ => hdst, ?_⟩, hdst⟩
  · intro j hj
    refine ⟨⟨by rw [hnext]; exact hj.1, ?_⟩, by rw [hdata]⟩
    rw [hnode, Function.update_self]
    simp
  · intro h k j hj
    rw [hdata]
    by_cases hp : src k = dst ++ ".partial"
    · rw [hnode, hp, Function.update_self] at hj
      cases hj
    · rw [hnode, Function.update_of_ne hp] at hj
      by_cases hd : src k = dst
      · rw [hd, Function.update_self] at hj
        cases hj
        exact hgood
      · rw [Function.update_of_ne hd] at hj
        exact h k j hj

/-- What the other call has open is spared. -/
theorem Holds.spared (h : Holds good dst fs st) (hst : st.working = false)
    (hspares : Spares good src dst fs fs') : Holds good dst fs' st := by
  cases st with
  | opened input =>
    intro i hi
    obtain ⟨hsafe, hgood⟩ := h i hi
    obtain ⟨hsafe', hsame⟩ := hspares.safe i hsafe
    exact ⟨hsafe', by rw [hsame]; exact hgood⟩
  | reading | writing | copied | closed => cases hst
  | done result =>
    cases result with
    | ok => exact hspares.target h
    | error => trivial
  | start | removing => trivial

end Good

section Invariant
variable {β : Type} [Inhabited β]
variable {fs fs' : Files String β} {st st' : Stage β} {src : Bool → String} {dst : String}
  {good : List β → Prop} {s t : Race β}

/-- What is beside the destination never gets a second name. -/
theorem Advance.only (h : Advance source dst fs st fs' st') (honly : fs.Only (dst ++ ".partial")) :
    fs'.Only (dst ++ ".partial") := by
  cases h with
  | opens | reads | ends | closes => exact honly
  | openFails | createFails | readFails | closeFails | renameFails | removeFails => exact honly
  | creates hcreate => exact honly.create hcreate
  | writes | writeFails => exact honly.mono (fun _ _ hq => hq)
  | removes hremove => exact .remove hremove
  | renames hrename =>
    obtain ⟨i, _, _, _, hnode⟩ := Files.rename_ok hrename honly (partial_ne dst)
    apply Files.Only.of_none
    rw [hnode, Function.update_self]

/-- One call has failed, or both are at work on one copy, or the copy of the one that is at work
has been renamed by the other. Then not both succeed. -/
def Doomed (dst : String) (s : Race β) : Prop :=
  (∃ k, (s.stage k).failed = true) ∨ (∀ k, (s.stage k).working = true) ∨
    ∃ k, (s.stage k).working = true ∧ s.stage (!k) = .done (.ok ()) ∧
      s.files.node (dst ++ ".partial") = none

/-- At work, a call fails, goes on with the names as they are, or renames its copy. -/
theorem Advance.working_cases (h : Advance source dst fs st fs' st')
    (honly : fs.Only (dst ++ ".partial")) (hst : st.working = true) :
    st'.failed = true ∨ (st'.working = true ∧ fs'.node = fs.node) ∨
      (st' = .done (.ok ()) ∧ fs.node (dst ++ ".partial") ≠ none ∧
        fs'.node (dst ++ ".partial") = none) := by
  cases h with
  | readFails | writeFails | closeFails | renameFails => exact .inl rfl
  | reads | ends | writes | closes => exact .inr (.inl ⟨rfl, rfl⟩)
  | renames hrename =>
    obtain ⟨i, hi, _, _, hnode⟩ := Files.rename_ok hrename honly (partial_ne dst)
    refine .inr (.inr ⟨rfl, by simp [hi], ?_⟩)
    rw [hnode, Function.update_self]
  | opens | openFails | creates | createFails | removes | removeFails => cases hst

/-- A call that has failed does not recover. -/
theorem Advance.failed_of_failed (h : Advance source dst fs st fs' st') (hst : st.failed = true) :
    st'.failed = true := by
  cases h with
  | removes | removeFails => rfl
  | _ => cases hst

theorem Advance.not_returned (h : Advance source dst fs (.done (.ok ())) fs' st') : False := by
  cases h

theorem Advance.doomed (h : Advance source dst s.files (s.stage k) t.files (t.stage k))
    (hother : t.stage (!k) = s.stage (!k)) (honly : s.files.Only (dst ++ ".partial"))
    (hs : Doomed dst s) : Doomed dst t := by
  rcases hs with ⟨j, hj⟩ | hboth | ⟨j, hj, hdone, hnone⟩
  · refine .inl ⟨j, ?_⟩
    rcases one_of_two j k with rfl | rfl
    · exact h.failed_of_failed hj
    · rw [hother]
      exact hj
  · rcases h.working_cases honly (hboth k) with hfailed | ⟨hwork, _⟩ | ⟨hdone, _, hnone⟩
    · exact .inl ⟨k, hfailed⟩
    · refine .inr (.inl (fun j => ?_))
      rcases one_of_two j k with rfl | rfl
      · exact hwork
      · rw [hother]
        exact hboth _
    · refine .inr (.inr ⟨!k, ?_, ?_, hnone⟩)
      · rw [hother]
        exact hboth _
      · rw [Bool.not_not]
        exact hdone
  · rcases one_of_two j k with rfl | rfl
    · rcases h.working_cases honly hj with hfailed | ⟨hwork, hnode⟩ | ⟨_, hsome, _⟩
      · exact .inl ⟨j, hfailed⟩
      · exact .inr (.inr ⟨j, hwork, hother.trans hdone, hnode ▸ hnone⟩)
      · exact absurd hnone hsome
    · -- the one that has returned takes no step
      rw [Bool.not_not] at hdone
      rw [hdone] at h
      exact h.not_returned.elim

theorem Spares.writeAt (honly : fs.Only (dst ++ ".partial"))
    (hsrc : ∀ k, src k ≠ dst ++ ".partial")
    (hout : fs.node (dst ++ ".partial") = some (.file out)) (pos : Nat) (chunk : List β) :
    Spares good src dst fs (fs.writeAt out pos chunk) := by
  refine .of_names honly hsrc ?_ (fun q _ => rfl)
  intro i hi
  have hne : i ≠ out := by
    rintro rfl
    exact hi.2 hout
  exact ⟨hi, Function.update_of_ne hne ..⟩

/-- A call that does not fail spares what the other one has open and goes on as it should. -/
theorem Advance.holds (h : Advance (src k) dst fs st fs' st')
    (honly : fs.Only (dst ++ ".partial")) (hsrc : ∀ k, src k ≠ dst ++ ".partial")
    (hsources : Sources good src fs) (hst : Holds good dst fs st) :
    st'.failed = true ∨ (Spares good src dst fs fs' ∧ Holds good dst fs' st') := by
  cases h with
  | openFails | createFails | readFails | writeFails | closeFails | renameFails => exact .inl rfl
  | removes | removeFails => exact .inl rfl
  | opens hnode =>
    refine .inr ⟨.refl .., ?_⟩
    rintro i rfl
    exact ⟨safe_of_name honly (hsrc k) hnode, hsources k i hnode⟩
  | @creates out _ input hcreate =>
    obtain ⟨hnode, hdata, _, _⟩ := Files.create_ok hcreate
    have hspares : Spares good src dst fs fs' := .create honly hsrc hcreate
    have hempty : fs'.data out = [] := by rw [hdata, Function.update_self]
    refine .inr ⟨hspares, by rw [hnode, Function.update_self], by simp [hempty], ?_⟩
    intro i hi
    obtain ⟨hsafe, hgood⟩ := hst i hi
    obtain ⟨hsafe', hsame⟩ := hspares.safe i hsafe
    exact ⟨hsafe', by rw [hsame]; exact hgood, by simp [hempty]⟩
  | @reads pos i out size hmore =>
    obtain ⟨hout, hpos, hinput⟩ := hst
    obtain ⟨hsafe, hgood, hpre⟩ := hinput i rfl
    refine .inr ⟨.refl .., hout, hpos, ?_⟩
    intro j hj
    cases hj
    refine ⟨hsafe, hgood, ?_⟩
    have hsplit := List.prefix_iff_eq_append.mp hpre
    rw [hpos] at hsplit
    conv => rhs; rw [← hsplit]
    exact (List.prefix_append_right_inj _).mpr (List.take_prefix _ _)
  | @ends i pos out hend =>
    obtain ⟨hout, hpos, hinput⟩ := hst
    obtain ⟨_, hgood, hpre⟩ := hinput i rfl
    have hall : fs.data out = fs.data i := hpre.eq_of_length_le (by omega)
    exact .inr ⟨.refl .., out, hout, by rw [hall]; exact hgood⟩
  | @writes input out pos chunk =>
    obtain ⟨hout, hpos, hinput⟩ := hst
    have hspares : Spares good src dst fs (fs.writeAt out pos chunk) :=
      .writeAt honly hsrc hout pos chunk
    have hmore : (fs.writeAt out pos chunk).data out = fs.data out ++ chunk := by
      rw [← hpos]
      exact (Function.update_self ..).trans (Files.splice_end _ _)
    refine .inr ⟨hspares, hout, by rw [hmore, List.length_append, hpos], ?_⟩
    intro i hi
    obtain ⟨hsafe, hgood, hpre⟩ := hinput i hi
    obtain ⟨hsafe', hsame⟩ := hspares.safe i hsafe
    exact ⟨hsafe', by rw [hsame]; exact hgood, by rw [hmore, hsame]; exact hpre⟩
  | closes => exact .inr ⟨.refl .., hst⟩
  | renames hrename =>
    obtain ⟨hspares, hdst⟩ := Spares.rename honly hrename hst
    exact .inr ⟨hspares, hdst⟩

/-- A call that is not at work changes no file before it is. -/
theorem Advance.idle_cases (h : Advance source dst fs st fs' st') (hst : st.working = false) :
    st'.failed = true ∨ st'.working = true ∨ fs' = fs := by
  cases h with
  | openFails | createFails | removes | removeFails => exact .inl rfl
  | opens => exact .inr (.inr rfl)
  | creates => exact .inr (.inl rfl)
  | _ => cases hst

theorem Advance.sound (h : Advance (src k) dst s.files (s.stage k) t.files (t.stage k))
    (hother : t.stage (!k) = s.stage (!k)) (honly : s.files.Only (dst ++ ".partial"))
    (hsrc : ∀ k, src k ≠ dst ++ ".partial") (hs : Sound good src dst s) :
    Doomed dst t ∨ Sound good src dst t := by
  rcases h.holds honly hsrc hs.sources (hs.stages k) with hfailed | ⟨hspares, hholds⟩
  · exact .inl (.inl ⟨k, hfailed⟩)
  by_cases hboth : ∀ j, (t.stage j).working = true
  · exact .inl (.inr (.inl hboth))
  cases hfailed : (t.stage k).failed with
  | true => exact .inl (.inl ⟨k, hfailed⟩)
  | false =>
    refine .inr ⟨hspares.sources hs.sources, ?_, ?_⟩
    · intro j
      rcases one_of_two j k with rfl | rfl
      · exact hholds
      · rw [hother]
        cases hwork : (s.stage (!k)).working with
        | false => exact (hs.stages (!k)).spared hwork hspares
        | true =>
          -- while the other one is at work, this one can only have opened its source
          have hidle : (s.stage k).working = false := by simpa using hs.alone (!k) hwork
          rcases h.idle_cases hidle with hf | hw | hsame
          · rw [hfailed] at hf
            cases hf
          · refine absurd (fun i => ?_) hboth
            rcases one_of_two i k with rfl | rfl
            · exact hw
            · rw [hother]
              exact hwork
          · rw [hsame]
            exact hs.stages (!k)
    · intro j hj
      rw [Bool.eq_false_iff]
      intro hj'
      refine hboth (fun i => ?_)
      rcases one_of_two i j with rfl | rfl
      · exact hj
      · exact hj'

theorem step_spec (h : step src dst s (k, ev) = some t) :
    Advance (src k) dst s.files (s.stage k) t.files (t.stage k) ∧
      t.stage (!k) = s.stage (!k) := by
  obtain ⟨⟨fs', st'⟩, hadvance, rfl⟩ := Option.map_eq_some_iff.mp h
  have hself : Function.update s.stage k st' k = st' := Function.update_self ..
  refine ⟨?_, Function.update_of_ne (by simp) ..⟩
  dsimp only
  rw [hself]
  exact advance_spec hadvance

/-- What holds of two copies under way. -/
def Invariant (good : List β → Prop) (src : Bool → String) (dst : String) (s : Race β) : Prop :=
  s.files.Only (dst ++ ".partial") ∧ (Doomed dst s ∨ Sound good src dst s)

theorem step_invariant (hsrc : ∀ k, src k ≠ dst ++ ".partial") (h : step src dst s a = some t)
    (hs : Invariant good src dst s) : Invariant good src dst t := by
  obtain ⟨k, ev⟩ := a
  obtain ⟨honly, hs⟩ := hs
  obtain ⟨hadvance, hother⟩ := step_spec h
  refine ⟨hadvance.only honly, ?_⟩
  rcases hs with hdoomed | hsound
  · exact .inl (hadvance.doomed hother honly hdoomed)
  · exact hadvance.sound hother honly hsrc hsound

end Invariant

section Alone
variable {β : Type} {fs₀ fs fs' : Files String β} {st st' : Stage β} {src dst : String}

/-- A call with no other one beside it. -/
def alone [Inhabited β] (src dst : String) (s : Files String β × Stage β) (ev : Event) :
    Option (Files String β × Stage β) :=
  advance src dst s.1 s.2 ev

/-- The copy has been created, and then filled with `content`. -/
def Filled (fs₀ : Files String β) (src dst : String) (input : Node) (out : Nat) (content : List β)
    (fs₁ fs : Files String β) : Prop :=
  fs₀.node src = some input ∧ fs₀.create (dst ++ ".partial") = .ok (out, fs₁) ∧
    fs = fs₁.fill out content

/-- How far a call alone has come from `fs₀`. -/
def Reached (fs₀ : Files String β) (src dst : String) (fs : Files String β) : Stage β → Prop
  | .start => fs = fs₀
  | .opened input => fs = fs₀ ∧ fs₀.node src = some input
  | .reading input out pos => ∃ c fs₁, Filled fs₀ src dst input out c fs₁ fs ∧ c.length = pos ∧
      ∀ i, input = .file i → c <+: fs₁.data i
  | .writing input out pos chunk => ∃ c fs₁, Filled fs₀ src dst input out c fs₁ fs ∧
      c.length = pos ∧ ∀ i, input = .file i → c ++ chunk <+: fs₁.data i
  | .copied | .closed => ∃ input out c fs₁, Filled fs₀ src dst input out c fs₁ fs ∧
      fs₁.read input = .ok c
  | .removing _ => ∃ input out c fs₁, Filled fs₀ src dst input out c fs₁ fs
  | .done result => ∃ r, copyFile (.ofFiles fs₀) r src dst = (result, .ofFiles fs)

theorem Filled.data (h : Filled fs₀ src dst (.file i) out c fs₁ fs)
    (honly : fs₀.Only (dst ++ ".partial")) (hsrc : src ≠ dst ++ ".partial") :
    fs.data i = fs₁.data i := by
  obtain ⟨hnode, hcreate, rfl⟩ := h
  exact Function.update_of_ne ((safe_of_name honly hsrc hnode).ne_created hcreate) ..

variable [Inhabited β]

theorem Filled.splice (h : Filled fs₀ src dst input out c fs₁ fs) (chunk : List β) :
    Filled fs₀ src dst input out (c ++ chunk) fs₁ (fs.writeAt out c.length chunk) := by
  obtain ⟨hnode, hcreate, rfl⟩ := h
  refine ⟨hnode, hcreate, ?_⟩
  have hdata : (fs₁.fill out c).data out = c := Function.update_self ..
  rw [Files.writeAt, hdata, Files.splice_end, Files.fill_fill]

theorem Advance.reached (h : Advance src dst fs st fs' st') (honly : fs₀.Only (dst ++ ".partial"))
    (hsrc : src ≠ dst ++ ".partial") (hst : Reached fs₀ src dst fs st) :
    Reached fs₀ src dst fs' st' := by
  cases h with
  | opens hnode => exact ⟨hst, hst ▸ hnode⟩
  | @creates out _ input hcreate =>
    obtain ⟨rfl, hnode⟩ := hst
    have hempty : fs'.data out = [] := by
      rw [(Files.create_ok hcreate).2.1, Function.update_self]
    refine ⟨[], fs', ⟨hnode, hcreate, ?_⟩, rfl, by simp⟩
    rw [← hempty, Files.fill_self]
  | @reads pos i out size hmore =>
    obtain ⟨c, fs₁, hfilled, hpos, hpre⟩ := hst
    refine ⟨c, fs₁, hfilled, hpos, ?_⟩
    intro j hj
    cases hj
    have hsplit := List.prefix_iff_eq_append.mp (hpre i rfl)
    rw [hpos] at hsplit
    rw [hfilled.data honly hsrc]
    conv => rhs; rw [← hsplit]
    exact (List.prefix_append_right_inj _).mpr (List.take_prefix _ _)
  | @ends i pos out hend =>
    obtain ⟨c, fs₁, hfilled, hpos, hpre⟩ := hst
    rw [hfilled.data honly hsrc] at hend
    have hall : c = fs₁.data i := (hpre i rfl).eq_of_length_le (by omega)
    exact ⟨.file i, out, c, fs₁, hfilled, by rw [hall]; rfl⟩
  | @writes input out pos chunk =>
    obtain ⟨c, fs₁, hfilled, hpos, hpre⟩ := hst
    subst hpos
    exact ⟨c ++ chunk, fs₁, hfilled.splice chunk, by simp, hpre⟩
  | closes => exact hst
  | renames hrename =>
    obtain ⟨input, out, c, fs₁, ⟨hnode, hcreate, rfl⟩, hread⟩ := hst
    refine ⟨.none [], ?_⟩
    simp [copyFile, Refusals.none, ask, Linked.openFile_ofFiles hnode,
      Linked.create_ofFiles hcreate, hread, hrename]
  | @openFails e =>
    subst hst
    exact ⟨{ Refusals.none [] with openFile := some e }, rfl⟩
  | @createFails input e =>
    obtain ⟨rfl, hnode⟩ := hst
    refine ⟨{ Refusals.none [] with create := some e }, ?_⟩
    simp [copyFile, Refusals.none, ask, Linked.openFile_ofFiles hnode]
  | readFails =>
    obtain ⟨c, fs₁, hfilled, _⟩ := hst
    exact ⟨_, _, c, fs₁, hfilled⟩
  | @writeFails input out pos chunk written e =>
    obtain ⟨c, fs₁, hfilled, hpos, _⟩ := hst
    subst hpos
    exact ⟨input, out, _, fs₁, hfilled.splice _⟩
  | closeFails =>
    obtain ⟨input, out, c, fs₁, hfilled, _⟩ := hst
    exact ⟨input, out, c, fs₁, hfilled⟩
  | @renameFails e =>
    obtain ⟨input, out, c, fs₁, ⟨hnode, hcreate, rfl⟩, hread⟩ := hst
    refine ⟨{ Refusals.none [] with rename := some e }, ?_⟩
    simp [copyFile, Refusals.none, ask, Linked.openFile_ofFiles hnode,
      Linked.create_ofFiles hcreate, hread]
  | @removes fs' e hremove =>
    obtain ⟨input, out, c, fs₁, hnode, hcreate, rfl⟩ := hst
    refine ⟨{ Refusals.none c with copy := some e }, ?_⟩
    simp [copyFile, Refusals.none, ask, Linked.openFile_ofFiles hnode,
      Linked.create_ofFiles hcreate, discard, hremove]
  | @removeFails e =>
    obtain ⟨input, out, c, fs₁, hnode, hcreate, rfl⟩ := hst
    refine ⟨{ Refusals.none c with copy := some e, remove := some e }, ?_⟩
    simp [copyFile, Refusals.none, ask, Linked.openFile_ofFiles hnode,
      Linked.create_ofFiles hcreate, discard]

/-- A copy made alone, in whatever pieces, is one that is made at once. -/
theorem alone_is_copyFile (hsrc : src ≠ dst ++ ".partial") (honly : fs.Only (dst ++ ".partial"))
    (hrun : Path (alone src dst) Free (fs, .start) evs (fs', .done result)) :
    ∃ r, copyFile (.ofFiles fs) r src dst = (result, .ofFiles fs') := by
  have hinv : ∀ (s : Files String β × Stage β) ev t, Free s ev → alone src dst s ev = some t →
      Reached fs src dst s.1 s.2 → Reached fs src dst t.1 t.2 := by
    intro s ev t _ hstep hs
    exact (advance_spec hstep).reached honly hsrc hs
  have hstart : Reached fs src dst fs (.start : Stage β) := rfl
  exact hrun.invariant (P := fun s : Files String β × Stage β => Reached fs src dst s.1 s.2) hinv
    hstart

end Alone

section Results
variable {β : Type} [Inhabited β]

/-- If nothing else is a link to what is beside the destination, two copies that both succeed leave
there what one of the sources held. -/
theorem copies_not_mixed {fs : Files String β} {src : Bool → String} {dst : String}
    (hsrc : ∀ k, src k ≠ dst ++ ".partial") (honly : fs.Only (dst ++ ".partial"))
    (hrun : Path (step src dst) Free (.start fs) as t) (hok : ∀ k, t.stage k = .done (.ok ())) :
    ∃ k b, fs.entry (src k) = some (.bytes b) ∧ t.files.entry dst = some (.bytes b) := by
  let good (b : List β) : Prop := ∃ k, fs.entry (src k) = some (.bytes b)
  have hstart : Invariant good src dst (.start fs) := by
    refine ⟨honly, .inr ⟨?_, fun _ => trivial, fun _ h => by cases h⟩⟩
    intro k i hi
    exact ⟨k, Files.entry_file hi⟩
  have hend : Invariant good src dst t :=
    hrun.invariant (fun _ _ _ _ hstep => step_invariant hsrc hstep) hstart
  rcases hend.2 with (⟨k, hk⟩ | hboth | ⟨k, hk, _⟩) | hsound
  · rw [hok] at hk
    cases hk
  · have hk := hboth true
    rw [hok] at hk
    cases hk
  · rw [hok] at hk
    cases hk
  · have hdone := hsound.stages true
    rw [hok] at hdone
    obtain ⟨i, hi, k, hk⟩ := hdone
    exact ⟨k, _, hk, Files.entry_file hi⟩

def mkvs : Bool → String := fun k => if k then "a.mkv" else "b.mkv"

/-- Two files, a third one and another name for it or for none. -/
def racedFiles (linked : Bool) : Files String Nat where
  node p := if p = "a.mkv" then some (.file 0) else if p = "b.mkv" then some (.file 1)
    else if p = "c.mkv" ∨ linked = true ∧ p = "c.mkv.partial" then some (.file 2) else none
  data i := if i = 0 then [1, 1] else if i = 1 then [2, 2] else []
  next := 3
  made := by
    intro p i h
    split at h
    · cases h
      decide
    · split at h
      · cases h
        decide
      · split at h
        · cases h
          decide
        · cases h

/-- One call after the other. -/
def sequentialRun : List (Bool × Event) :=
  (List.replicate 7 (true, .proceed 1)) ++ List.replicate 7 (false, .proceed 1)

/-- The copies that were made one after the other. -/
theorem sequential_copies_not_mixed :
    ∃ t, exec (step mkvs "c.mkv") (.start (racedFiles false)) sequentialRun = some t ∧
      ∃ k b, (racedFiles false).entry (mkvs k) = some (.bytes b) ∧
        t.files.entry "c.mkv" = some (.bytes b) := by
  have hrun : (exec (step mkvs "c.mkv") (.start (racedFiles false)) sequentialRun).map
      (fun t => (t.stage true, t.stage false)) = some (.done (.ok ()), .done (.ok ())) := by
    decide +kernel
  obtain ⟨t, ht, hdone⟩ := Option.map_eq_some_iff.mp hrun
  obtain ⟨htrue, hfalse⟩ := Prod.mk.inj hdone
  refine ⟨t, ht, copies_not_mixed (by decide) ?_ (.of_exec ht) ?_⟩
  · exact Files.Only.of_none (by decide)
  · intro k
    cases k
    · exact hfalse
    · exact htrue

/-- The calls take turns, and the second byte of one is written after that of the other. -/
def mixedRun : List (Bool × Event) :=
  [true, false, true, false, true, true, false, false, true, false, false, true, true, false, true,
    false, true, false].map (fun k => (k, .proceed 0))

/-- Where the copy's name is another one of the destination, both succeed and the bytes are
mixed. -/
theorem linked_copies_mixed :
    ∃ t, exec (step mkvs "c.mkv") (.start (racedFiles true)) mixedRun = some t ∧
      t.stage true = .done (.ok ()) ∧ t.stage false = .done (.ok ()) ∧
      t.files.entry "c.mkv" = some (.bytes [2, 1]) := by
  have hrun : (exec (step mkvs "c.mkv") (.start (racedFiles true)) mixedRun).map
      (fun t => (t.stage true, t.stage false, t.files.entry "c.mkv")) =
      some (.done (.ok ()), .done (.ok ()), some (.bytes [2, 1])) := by
    decide +kernel
  obtain ⟨t, ht, hdone⟩ := Option.map_eq_some_iff.mp hrun
  simp only [Prod.mk.injEq] at hdone
  exact ⟨t, ht, hdone⟩

end Results

end Sonarr.FileTransfer
