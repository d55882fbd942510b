import Sonarr.Backup.Names
import Sonarr.Lib.Civil
import Sonarr.Lib.Machine
import Sonarr.Lib.StableSort

namespace Sonarr.Backup
open Lib

/-- An entry of the backup directory; a directory has no content. -/
structure Entry (α : Type) where
  name : String
  content : Option α
  modTime : Int
  deriving DecidableEq, Repr

structure Folder (α : Type) where
  entries : List (Entry α)
  unique : (entries.map Entry.name).Nodup

variable {α : Type}

/-- What `List` lists. -/
def Entry.isArchive (e : Entry α) : Bool :=
  e.content.isSome && Text.hasPrefix e.name "sonarr2_backup_" && Text.hasSuffix e.name ".tar.gz"

namespace Folder

def archives (d : Folder α) : List (Entry α) := d.entries.filter Entry.isArchive

def remove (d : Folder α) (name : String) : Folder α where
  entries := d.entries.filter (fun e => e.name ≠ name)
  unique := d.unique.sublist (List.filter_sublist.map _)

/-- A file that is created, or replaced. -/
def write (d : Folder α) (name : String) (content : α) (modTime : Int) : Folder α where
  entries := (d.remove name).entries ++ [⟨name, some content, modTime⟩]
  unique := by
    rw [List.map_append, List.nodup_append]
    refine ⟨(d.remove name).unique, by simp, ?_⟩
    intro a ha b hb
    obtain ⟨e, he, rfl⟩ := List.mem_map.mp ha
    obtain rfl : b = name := by simpa using hb
    simpa using (List.mem_filter.mp he).2

end Folder

structure Options where
  backupDir : String
  retention : Int

/-- `New`: a retention that is not positive is 7. -/
def Options.keep (opts : Options) : Nat := if opts.retention ≤ 0 then 7 else opts.retention.toNat

theorem Options.keep_pos (opts : Options) : 0 < opts.keep := by
  unfold keep
  split <;> omega

def newer (a b : Entry α) : Bool := decide (b.modTime < a.modTime)

/-- One call of `Create`: the clock and the offset of local time, what the archive holds if
nothing fails before it is closed and what it holds if something does, when it was last
written to, the order of `sort.Slice`, and which calls to the system succeed. -/
structure Attempt (α : Type) where
  now : Int
  zone : Int
  content : Option α
  left : α
  written : Int
  order : Arrangement (newer (α := α))
  wd : Option WorkingDir
  mkdirs : Bool
  creates : Bool
  removesLeft : Bool
  stats : Bool
  reads : Bool
  infos : String → Bool
  removes : String → Bool

/-- `sonarr2_backup_<time>.tar.gz`, to the second. -/
def Attempt.filename (a : Attempt α) : String :=
  let d := Civil.ofSeconds (a.now / 1000000000 + a.zone)
  "sonarr2_backup_" ++ String.ofList (Civil.pad4 d.year ++ Civil.pad2 d.month ++ Civil.pad2 d.day ++
    Civil.pad2 d.hour ++ Civil.pad2 d.minute ++ Civil.pad2 d.second) ++ ".tar.gz"

/-- `List`; none if the directory cannot be read. -/
def list (a : Attempt α) (d : Folder α) : Option (List (Entry α)) :=
  if a.reads then some (a.order.run (d.archives.filter (fun e => a.infos e.name))) else none

/-- `Delete`; none on an error. -/
def delete (opts : Options) (a : Attempt α) (name : String) (d : Folder α) : Option (Folder α) :=
  match filePath a.wd opts.backupDir name with
  | .error _ => none
  | .ok _ => if a.removes name then some (d.remove name) else none

/-- The loop of `enforceRetention`, which stops at the first error. -/
def deleteExtras (opts : Options) (a : Attempt α) : List (Entry α) → Folder α → Folder α
  | [], d => d
  | e :: extras, d =>
    match delete opts a e.name d with
    | none => d
    | some d => deleteExtras opts a extras d

def enforceRetention (opts : Options) (a : Attempt α) (d : Folder α) : Folder α :=
  match list a d with
  | none => d
  | some infos => if infos.length ≤ opts.keep then d else deleteExtras opts a (infos.drop opts.keep) d

inductive CreateError
  | createDir
  | createFile
  | write
  | stat
  deriving DecidableEq, Repr

/-- A directory stands where the archive should be created. -/
def blocked (name : String) (d : Folder α) : Bool :=
  d.entries.any (fun e => e.name == name && e.content.isNone)

/-- `Create`: the outcome and the directory that is left. -/
def create (opts : Options) (a : Attempt α) (d : Folder α) : Except CreateError Unit × Folder α :=
  if !a.mkdirs then (.error .createDir, d)
  else if !a.creates || blocked a.filename d then (.error .createFile, d)
  else match a.content with
    | none =>
      (.error .write,
        if a.removesLeft then d.remove a.filename else d.write a.filename a.left a.written)
    | some content =>
      let d := d.write a.filename content a.written
      if !a.stats then (.error .stat, d) else (.ok (), enforceRetention opts a d)

section Folder
variable {d : Folder α}

theorem mem_archives : e ∈ d.archives ↔ e ∈ d.entries ∧ e.isArchive = true := List.mem_filter

theorem mem_remove : e ∈ (d.remove name).archives ↔ e ∈ d.archives ∧ e.name ≠ name := by
  simp only [Folder.archives, Folder.remove, List.mem_filter, decide_eq_true_eq]
  exact ⟨fun ⟨⟨h, hn⟩, ha⟩ => ⟨⟨h, ha⟩, hn⟩, fun ⟨⟨h, ha⟩, hn⟩ => ⟨⟨h, hn⟩, ha⟩⟩

theorem mem_write_of_ne (h : e ∈ d.archives) (hn : e.name ≠ name) (content : α) (t : Int) :
    e ∈ (d.write name content t).archives := by
  obtain ⟨he, ha⟩ := mem_archives.mp h
  exact mem_archives.mpr ⟨List.mem_append_left _ (List.mem_filter.mpr ⟨he, by simpa using hn⟩), ha⟩

theorem nodup_archives (d : Folder α) : (d.archives.map Entry.name).Nodup :=
  d.unique.sublist (List.filter_sublist.map _)

end Folder

theorem filename_pattern (a : Attempt α) :
    Text.hasPrefix a.filename "sonarr2_backup_" = true ∧ Text.hasSuffix a.filename ".tar.gz" = true := by
  constructor
  · rw [Text.hasPrefix_iff]
    exact ⟨_, String.append_assoc ..⟩
  · unfold Text.hasSuffix Attempt.filename
    rw [List.isSuffixOf_iff_suffix, String.toList_append]
    exact List.suffix_append _ _

/-- After the archive was written the archives are the old ones and the new one. -/
theorem mem_write_filename {a : Attempt α} {d : Folder α} (h : ∀ e ∈ d.archives, e.name ≠ a.filename)
    (content : α) (t : Int) :
    e ∈ (d.write a.filename content t).archives ↔
      e ∈ d.archives ∨ e = ⟨a.filename, some content, t⟩ := by
  constructor
  · intro he
    obtain ⟨hmem, ha⟩ := mem_archives.mp he
    rcases List.mem_append.mp hmem with hold | hnew
    · exact .inl (mem_archives.mpr ⟨(List.mem_filter.mp hold).1, ha⟩)
    · exact .inr (List.mem_singleton.mp hnew)
  · rintro (he | rfl)
    · exact mem_write_of_ne he (h e he) content t
    · obtain ⟨hp, hs⟩ := filename_pattern a
      exact mem_archives.mpr ⟨by simp [Folder.write], by simp [Entry.isArchive, hp, hs]⟩

/-- A failed `Create` changes no archive that was there. -/
def Safe (opts : Options) (d : Folder α) (a : Attempt α) : Prop :=
  ∀ err d', create opts a d = (.error err, d') → ∀ e ∈ d.archives, e ∈ d'.archives

/-- A `Create` that returns nil leaves the new archive and the most recent others, not
more than the retention allows, and fewer only if there were not more. -/
structure Kept (opts : Options) (d : Folder α) (a : Attempt α) (d' : Folder α) : Prop where
  bounded : d'.archives.length ≤ opts.keep
  created : ∃ e ∈ d'.archives, e.name = a.filename ∧ e.content = a.content ∧ e.modTime = a.written
  old : ∀ e ∈ d'.archives, e.name ≠ a.filename → e ∈ d.archives
  recent : ∀ kept ∈ d'.archives, kept.name ≠ a.filename → ∀ gone ∈ d.archives,
    gone.name ≠ a.filename → gone ∉ d'.archives → gone.modTime ≤ kept.modTime
  filled : ∀ gone ∈ d.archives, gone.name ≠ a.filename → gone ∉ d'.archives →
    d'.archives.length = opts.keep

def Bounded (opts : Options) (d : Folder α) (a : Attempt α) : Prop :=
  ∀ d', create opts a d = (.ok (), d') → Kept opts d a d'

/-- The condition on a call: no archive has the name of this second, the archives are older
than the new one, and the system and `FilePath` let each of them be listed and deleted. -/
structure Orderly (opts : Options) (d : Folder α) (a : Attempt α) : Prop where
  fresh : ∀ e ∈ d.archives, e.name ≠ a.filename
  older : ∀ e ∈ d.archives, e.modTime < a.written
  reads : a.reads = true
  listed : a.infos a.filename = true ∧ ∀ e ∈ d.archives, a.infos e.name = true
  deletable : ∀ e ∈ d.archives, a.removes e.name = true ∧
    ∃ p, filePath a.wd opts.backupDir e.name = .ok p

theorem safe_of_fresh {a : Attempt α} {d : Folder α} (h : ∀ e ∈ d.archives, e.name ≠ a.filename)
    (opts : Options) : Safe opts d a := by
  intro err d' hcreate e he
  unfold create at hcreate
  split at hcreate
  · cases hcreate
    exact he
  · split at hcreate
    · cases hcreate
      exact he
    · split at hcreate
      · cases hcreate
        split
        · exact mem_remove.mpr ⟨he, h e he⟩
        · exact mem_write_of_ne he (h e he) _ _
      · dsimp only at hcreate
        split at hcreate
        · cases hcreate
          exact mem_write_of_ne he (h e he) _ _
        · cases hcreate

theorem mem_deleteExtras {opts : Options} {a : Attempt α} {extras : List (Entry α)} {d : Folder α}
    (h : ∀ e ∈ extras, a.removes e.name = true ∧ ∃ p, filePath a.wd opts.backupDir e.name = .ok p) :
    e ∈ (deleteExtras opts a extras d).archives ↔
      e ∈ d.archives ∧ ∀ x ∈ extras, e.name ≠ x.name := by
  induction extras generalizing d with
  | nil => simp [deleteExtras]
  | cons x extras ih =>
    rw [List.forall_mem_cons] at h
    obtain ⟨⟨hremoves, p, hp⟩, hrest⟩ := h
    have hdelete : delete opts a x.name d = some (d.remove x.name) := by
      unfold delete
      rw [hp]
      exact if_pos hremoves
    rw [deleteExtras, hdelete, List.forall_mem_cons]
    dsimp only
    rw [ih hrest, mem_remove, and_assoc]

/-- The only newest entry stands among the first ones of a sorted list. -/
theorem newest_mem_take {infos : List (Entry α)} (hsorted : infos.Pairwise (fun a b => newer b a = false))
    (hnew : new ∈ infos) (hnewest : ∀ e ∈ infos, e ≠ new → e.modTime < new.modTime) (hn : 0 < n) :
    new ∈ infos.take n := by
  cases infos with
  | nil => cases hnew
  | cons e infos =>
    obtain ⟨m, rfl⟩ := Nat.exists_eq_succ_of_ne_zero (Nat.ne_of_gt hn)
    rw [List.take_succ_cons]
    rcases List.mem_cons.mp hnew with rfl | hrest
    · exact List.mem_cons_self
    · have hafter := (List.pairwise_cons.mp hsorted).1 new hrest
      by_cases he : e = new
      · rw [he]
        exact List.mem_cons_self
      · have hlt := hnewest e List.mem_cons_self he
        simp only [newer, decide_eq_false_iff_not] at hafter
        exact absurd hlt hafter

section Retention
variable {opts : Options} {d : Folder α} {a : Attempt α} {content : α}

/-- In an orderly call the archives that stay are the first ones in the order of `List`. -/
theorem exists_kept (h : Orderly opts d a) (content : α) :
    ∃ infos : List (Entry α),
      infos.Perm (d.write a.filename content a.written).archives ∧
      infos.Pairwise (fun a b => newer b a = false) ∧
      ⟨a.filename, some content, a.written⟩ ∈ infos.take opts.keep ∧
      ∀ e, e ∈ (enforceRetention opts a (d.write a.filename content a.written)).archives ↔
        e ∈ infos.take opts.keep := by
  have hmem := fun e => mem_write_filename (e := e) h.fresh content a.written
  have hunique := nodup_archives (d.write a.filename content a.written)
  generalize hwritten : d.write a.filename content a.written = written at hmem hunique
  have hall : written.archives.filter (fun e => a.infos e.name) = written.archives := by
    rw [List.filter_eq_self]
    intro e he
    rcases (hmem e).mp he with he | rfl
    · exact h.listed.2 e he
    · exact h.listed.1
  have hlist : list a written = some (a.order.run written.archives) := by
    unfold list
    rw [if_pos h.reads, hall]
  have hperm := a.order.perm written.archives
  have hsorted := a.order.sorted written.archives
  generalize a.order.run written.archives = infos at hlist hperm hsorted
  have hinfos : ∀ e, e ∈ infos ↔ e ∈ d.archives ∨ e = ⟨a.filename, some content, a.written⟩ :=
    fun e => hperm.mem_iff.trans (hmem e)
  have hnew : ⟨a.filename, some content, a.written⟩ ∈ infos.take opts.keep := by
    apply newest_mem_take hsorted ((hinfos _).mpr (.inr rfl)) ?_ opts.keep_pos
    intro e he hne
    rcases (hinfos e).mp he with hold | rfl
    · exact h.older e hold
    · exact absurd rfl hne
  refine ⟨infos, hperm, hsorted, hnew, fun e => ?_⟩
  -- Entries in front and behind have different names.
  have hsplit : ∀ x ∈ infos.take opts.keep, ∀ y ∈ infos.drop opts.keep, x.name ≠ y.name := by
    have hnames : (infos.map Entry.name).Nodup := (hperm.map _).nodup_iff.mpr hunique
    rw [← List.take_append_drop opts.keep infos, List.map_append, List.nodup_append] at hnames
    exact fun x hx y hy => hnames.2.2 _ (List.mem_map_of_mem hx) _ (List.mem_map_of_mem hy)
  unfold enforceRetention
  rw [hlist]
  dsimp only
  split
  · rename_i hfew
    rw [List.take_of_length_le hfew]
    exact hperm.mem_iff.symm
  · have hdeletable : ∀ x ∈ infos.drop opts.keep, a.removes x.name = true ∧
        ∃ p, filePath a.wd opts.backupDir x.name = .ok p := by
      intro x hx
      rcases (hinfos x).mp (List.mem_of_mem_drop hx) with hold | rfl
      · exact h.deletable x hold
      · exact absurd rfl (hsplit _ hnew _ hx)
    rw [mem_deleteExtras hdeletable, ← hperm.mem_iff]
    constructor
    · rintro ⟨he, hout⟩
      rw [← List.take_append_drop opts.keep infos, List.mem_append] at he
      rcases he with he | he
      · exact he
      · exact absurd rfl (hout e he)
    · intro he
      exact ⟨List.mem_of_mem_take he, fun x hx => hsplit e he x hx⟩

theorem kept_of_orderly (h : Orderly opts d a) (hcontent : a.content = some content) :
    Kept opts d a (enforceRetention opts a (d.write a.filename content a.written)) := by
  obtain ⟨infos, hperm, hsorted, hnew, hkept⟩ := exists_kept h content
  have hmem := fun e => mem_write_filename (e := e) h.fresh content a.written
  generalize enforceRetention opts a (d.write a.filename content a.written) = left at hkept
  have hnodup : infos.Nodup := hperm.nodup_iff.mpr (nodup_archives _).of_map
  have hlength : left.archives.length = (infos.take opts.keep).length :=
    ((List.perm_ext_iff_of_nodup (nodup_archives left).of_map
      (hnodup.sublist (List.take_sublist _ _))).mpr hkept).length_eq
  have hgone : ∀ e ∈ d.archives, e ∉ left.archives → e ∈ infos.drop opts.keep := by
    intro e he hout
    have hin : e ∈ infos := hperm.mem_iff.mpr ((hmem e).mpr (.inl he))
    rw [← List.take_append_drop opts.keep infos, List.mem_append, ← hkept] at hin
    exact hin.resolve_left hout
  refine ⟨?_, ?_, ?_, ?_, ?_⟩
  · rw [hlength, List.length_take]
    omega
  · exact ⟨_, (hkept _).mpr hnew, rfl, hcontent.symm, rfl⟩
  · intro e he hname
    have hin := List.mem_of_mem_take ((hkept e).mp he)
    rcases (hmem e).mp (hperm.mem_iff.mp hin) with hold | rfl
    · exact hold
    · exact absurd rfl hname
  · intro kept hk _ gone hg _ hout
    rw [← List.take_append_drop opts.keep infos, List.pairwise_append] at hsorted
    have hafter := hsorted.2.2 kept ((hkept kept).mp hk) gone (hgone gone hg hout)
    simpa [newer] using hafter
  · intro gone hg _ hout
    have hpos := List.length_pos_of_mem (hgone gone hg hout)
    rw [List.length_drop] at hpos
    rw [hlength, List.length_take]
    omega

end Retention

theorem bounded_of_orderly {opts : Options} {d : Folder α} {a : Attempt α} (h : Orderly opts d a) :
    Bounded opts d a := by
  intro d' hcreate
  unfold create at hcreate
  split at hcreate
  · cases hcreate
  · split at hcreate
    · cases hcreate
    · split at hcreate
      · cases hcreate
      · rename_i content hcontent
        dsimp only at hcreate
        split at hcreate
        · cases hcreate
        · cases hcreate
          exact kept_of_orderly h hcontent

def step (opts : Options) (d : Folder α) (a : Attempt α) : Option (Folder α) :=
  some (create opts a d).2

/-- In a sequence of orderly calls each one is safe and bounded. -/
theorem backups_safe_bounded {opts : Options} {d d' : Folder α} {as : List (Attempt α)}
    (h : Path (step opts) (Orderly opts) d as d') :
    ∀ x ∈ transitions (step opts) d as, Safe opts x.1 x.2 ∧ Bounded opts x.1 x.2 := by
  intro x hx
  have horderly := h.transitions_guard x hx
  exact ⟨safe_of_fresh horderly.fresh opts, bounded_of_orderly horderly⟩

section Runs

theorem newer_weakOrder : WeakOrder (newer (α := α)) where
  asymm a b h := by
    simp only [newer, decide_eq_true_eq, decide_eq_false_iff_not] at h ⊢
    omega
  trans a b c hab hbc := by
    simp only [newer, decide_eq_false_iff_not] at hab hbc ⊢
    omega

/-- A call at a second, with the system on its side; without content, writing fails. -/
def attempt (second : Int) (content : Option Nat) : Attempt Nat where
  now := second * 1000000000
  zone := 0
  content := content
  left := 0
  written := second * 1000000000
  order := .stable newer_weakOrder
  wd := none
  mkdirs := true
  creates := true
  removesLeft := true
  stats := true
  reads := true
  infos _ := true
  removes _ := true

def options : Options := ⟨"/config/Backups", 1⟩

/-- One archive, of the first second. -/
def single : Folder Nat where
  entries := [⟨"sonarr2_backup_19700101000000.tar.gz", some 1, 0⟩]
  unique := by simp

theorem backups_safe_bounded_second :
    ∃ d', Path (step options) (Orderly options) single [attempt 1 (some 2)] d' ∧
      Bounded options single (attempt 1 (some 2)) := by
  have hname : (attempt 1 (some 2)).filename = "sonarr2_backup_19700101000001.tar.gz" := by
    decide +kernel
  have hpath : filePath none "/config/Backups" "sonarr2_backup_19700101000000.tar.gz" =
      .ok "/config/Backups/sonarr2_backup_19700101000000.tar.gz" := by
    decide +kernel
  have hrun : Path (step options) (Orderly options) single [attempt 1 (some 2)]
      (create options (attempt 1 (some 2)) single).2 := by
    have hall : ∀ e ∈ single.archives, e = ⟨"sonarr2_backup_19700101000000.tar.gz", some 1, 0⟩ :=
      fun e he => List.mem_singleton.mp (mem_archives.mp he).1
    refine .cons ⟨?_, ?_, rfl, ⟨rfl, fun _ _ => rfl⟩, ?_⟩ rfl .nil
    · intro e he
      rw [hall e he, hname]
      decide
    · intro e he
      rw [hall e he]
      decide
    · intro e he
      rw [hall e he]
      exact ⟨rfl, _, hpath⟩
  exact ⟨_, hrun, (backups_safe_bounded hrun _ List.mem_cons_self).2⟩

/-- A second call in the same second that fails to write takes the first one's archive away. -/
theorem create_same_second :
    single.archives.length = 1 ∧
      (create options (attempt 0 none) single).1 = .error .write ∧
      (create options (attempt 0 none) single).2.archives = [] := by
  refine ⟨?_, ?_, ?_⟩ <;> decide +kernel

end Runs

end Sonarr.Backup
