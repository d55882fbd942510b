import Sonarr.Importer.FileRecords
import Sonarr.Importer.FileTransfer
import Sonarr.Lib.FileSizes

/-! A transfer of bytes, of which only the sizes are seen, is one of the transfers of
`FileRecords`. -/
namespace Sonarr.FileTransfer
open Lib

variable {β : Type} {fs : Linked String β} {src dst : String} {i : Nat}

theorem sizes_mkdirAll (fs : Linked String β) (r : Refusals β) (dirs : List String) :
    (mkdirAll fs r dirs).2.files.sizes = fs.files.sizes := by
  induction dirs with
  | nil => rfl
  | cons dir above ih =>
    unfold mkdirAll
    split
    · rfl
    · rfl
    · split
      · rename_i e fs' hall
        rw [hall] at ih
        exact ih
      · rename_i fs' hall
        rw [hall] at ih
        split
        · rename_i files hmk
          exact (Files.sizes_mkdir (ask_ok hmk)).trans ih
        · split
          · exact ih
          · exact ih

theorem sizes_discard (fs : Files String β) (r : Refusals β) (path : String) :
    ∃ removes : Bool, (discard fs r path).sizes =
      if removes then fs.sizes.remove path else fs.sizes := by
  unfold discard
  split
  · rename_i fs' hremove
    exact ⟨true, Files.sizes_remove (ask_ok hremove)⟩
  · exact ⟨false, rfl⟩

section Answers
open FileRecords Importer

/-- No call fails that the files allow. -/
def allowing (written : Int) (removes : Bool) : Faults where
  stat := none
  call _ := none
  written
  removes

def refusing (faults : Faults) (call : Syscall) (e : String) : Faults :=
  { faults with call := Function.update faults.call call (some e) }

variable {v : Volume String} {faults : Faults} {call other : Syscall} {e : String}

/-- Then the files decide. -/
@[simp] theorem answer_allowing (v : Volume String) (written : Int) (removes : Bool)
    (call : Syscall) : answer v (allowing written removes) call = match call with
      | .link src dst =>
        if v.file src = none then .error Files.noFile
        else if v.file dst ≠ none then .error "file exists" else .ok ()
      | .openFile src => if v.file src = none then .error Files.noFile else .ok ()
      | _ => .ok () := rfl

@[simp] theorem answer_refused : answer v (refusing faults call e) call = .error e := by
  simp [answer, refusing]

@[simp] theorem answer_refusing_ne (h : other ≠ call) :
    answer v (refusing faults call e) other = answer v faults other := by
  simp [answer, refusing, Function.update_of_ne h]

@[simp] theorem discard_refusing (v : Volume String) (path : String) :
    FileRecords.discard v (refusing faults call e) path = FileRecords.discard v faults path := rfl

/-- The sizes after a transfer and its outcome are those that the faults lead to. -/
def Seen (v : Volume String) (src dst : String) (faults : Faults)
    (out : Except String Unit × Linked String β) : Prop :=
  moveOnto v faults src dst = out.2.files.sizes ∧ Importer.moveFile (answer v faults) src dst = out.1

/-- Where a link is refused, the copy is seen. -/
theorem seen_copy {out : Except String Unit × Linked String β}
    (hmk : answer v faults (.mkdirAll (SlashPath.dir dst).render) = .ok ())
    (hvolume : copyOnto v (refusing faults (.link src dst) e) src dst = out.2.files.sizes)
    (hok : Importer.copyFile (answer v (refusing faults (.link src dst) e)) src dst = out.1) :
    Seen v src dst (refusing faults (.link src dst) e) out := by
  constructor
  · simp [moveOnto, hmk, hvolume]
  · simp [Importer.moveFile, hmk, hok, bind, Except.bind]

end Answers

theorem copyFile_seen (r : Refusals β) (hfile : fs.files.node src = some (.file i))
    (hplain : fs.linkAt src = none) (hbeside : fs.linkAt (dst ++ ".partial") = none)
    (e : String) : ∃ faults, Seen fs.files.sizes src dst (refusing faults (.link src dst) e)
      (copyFile fs r src dst) := by
  have hsrc : fs.files.sizes.file src = some i := Files.numberOf_eq_some.mpr hfile
  unfold copyFile
  dsimp only
  split
  · rename_i e' _
    refine ⟨refusing (allowing 0 false) (.openFile src) e', seen_copy ?_ ?_ ?_⟩
    · simp
    · simp [FileRecords.copyOnto]
    · simp [Importer.copyFile, bind, Except.bind]
  rename_i input hopen
  split
  · rename_i e' _
    refine ⟨refusing (allowing 0 false) (.create (dst ++ ".partial")) e', seen_copy ?_ ?_ ?_⟩
    · simp
    · simp [FileRecords.copyOnto, hsrc]
    · simp [Importer.copyFile, hsrc, bind, Except.bind]
  rename_i out fs₁ hcreate
  obtain ⟨hcreate, -⟩ := Linked.create_ok hbeside (ask_ok hcreate)
  have hout : fs₁.files.node (dst ++ ".partial") = some (.file out) := by
    rw [(Files.create_ok hcreate).1, Function.update_self]
  have hmade : fs.files.sizes.create (dst ++ ".partial") = fs₁.files.sizes :=
    (Files.sizes_create hcreate).symm
  -- a copy that is not finished or not closed
  have hleft : ∀ e', ∃ faults, Seen fs.files.sizes src dst (refusing faults (.link src dst) e)
      (.error e',
        { fs₁ with files := discard (fs₁.files.fill out r.left) r (dst ++ ".partial") }) := by
    intro e'
    obtain ⟨removes, hdiscard⟩ := sizes_discard (fs₁.files.fill out r.left) r (dst ++ ".partial")
    refine ⟨refusing (allowing r.left.length removes) (.copy src (dst ++ ".partial")) e',
      seen_copy ?_ ?_ ?_⟩
    · simp
    · dsimp only
      rw [hdiscard, Files.sizes_fill hout]
      simp [FileRecords.copyOnto, hsrc, hmade]
      rfl
    · simp [Importer.copyFile, hsrc, bind, Except.bind]
  split
  · exact hleft _
  rename_i content hread
  split
  · exact hleft _
  have hnode : fs.files.node src = some input := by
    obtain ⟨p, hp, hnode⟩ := Linked.openFile_ok (ask_ok hopen)
    rw [Linked.resolve_plain hplain] at hp
    cases hp
    exact hnode
  have hsize := Files.sizeAt_read hnode hcreate (ask_ok hread)
  split
  · rename_i e' _
    refine ⟨refusing (allowing 0 false) (.rename (dst ++ ".partial") dst) e',
      seen_copy ?_ ?_ ?_⟩
    · simp
    · dsimp only
      rw [Files.sizes_fill hout]
      simp [FileRecords.copyOnto, hsrc, hmade, hsize]
    · simp [Importer.copyFile, hsrc, bind, Except.bind]
  · rename_i files hrename
    refine ⟨allowing 0 false, seen_copy ?_ ?_ ?_⟩
    · simp
    · dsimp only
      rw [Files.sizes_rename (ask_ok hrename), Files.sizes_fill hout]
      simp [FileRecords.copyOnto, hsrc, hmade, hsize]
    · simp [Importer.copyFile, hsrc, bind, Except.bind]

/-- So what holds of the sizes for all faults holds of the bytes for all refusals. -/
theorem moveFile_seen (r : Refusals β) (hfile : fs.files.node src = some (.file i))
    (hplain : fs.linkAt src = none) (hbeside : fs.linkAt (dst ++ ".partial") = none) :
    ∃ faults, Seen fs.files.sizes src dst faults (moveFile fs r src dst) := by
  have hsizes := sizes_mkdirAll fs r (SlashPath.dir dst).chain
  have hlinks := (mkdirAll_grown fs r (SlashPath.dir dst).chain).linkAt
  unfold moveFile
  split
  · rename_i e fs₁ hmk
    rw [hmk] at hsizes
    refine ⟨refusing (allowing 0 false) (.mkdirAll (SlashPath.dir dst).render) e, ?_, ?_⟩
    · simp [FileRecords.moveOnto, hsizes]
    · simp [Importer.moveFile, bind, Except.bind]
  · rename_i fs₁ hmk
    rw [hmk] at hsizes hlinks
    have hfile₁ : fs₁.files.node src = some (.file i) := by
      have hsrc := congrArg (fun v => v.file src) hsizes
      exact Files.numberOf_eq_some.mp (hsrc.trans (Files.numberOf_eq_some.mpr hfile))
    rw [← hsizes]
    split
    · rename_i files hlink
      have hlink := ask_ok hlink
      have hsrc : fs₁.files.sizes.file src = some i := Files.numberOf_eq_some.mpr hfile₁
      have hdst : fs₁.files.sizes.file dst = none :=
        congrArg Files.numberOf (Files.link_ok hlink).1
      refine ⟨allowing 0 false, ?_, ?_⟩
      · dsimp only
        rw [Files.sizes_link hlink]
        simp [FileRecords.moveOnto, hsrc, hdst]
      · simp [Importer.moveFile, hsrc, hdst, bind, Except.bind]
    · rename_i e hlink
      obtain ⟨faults, hseen⟩ := copyFile_seen r hfile₁ (hlinks ▸ hplain) (hlinks ▸ hbeside) e
      exact ⟨_, hseen⟩

end Sonarr.FileTransfer
