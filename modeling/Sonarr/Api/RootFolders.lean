import Sonarr.Lib.AbsPath
import Sonarr.Lib.Digits
import Sonarr.Lib.Table

namespace Sonarr.Api.RootFolders
open Lib

structure RootFolder where
  id : Nat
  path : String
  deriving DecidableEq, Repr

instance : Keyed RootFolder := ⟨RootFolder.id⟩

/-- The table `root_folders`, in which no path stands twice. -/
structure Folders extends Table RootFolder where
  paths : (rows.map RootFolder.path).Nodup

inductive CreateError
  | pathRequired
  | alreadyExists
  deriving DecidableEq, Repr

/-- `Store.Create`. -/
def Folders.create (t : Folders) (path : String) : Except CreateError Folders :=
  let path := Text.trimSpace path
  if path = "" then .error .pathRequired
  else if h : path ∈ t.rows.map RootFolder.path then .error .alreadyExists
  else .ok
    { t.toTable.insert (fun id => ⟨id, path⟩) (fun _ => rfl) with
      paths := by
        show ((t.rows ++ [_]).map RootFolder.path).Nodup
        rw [List.map_append, List.nodup_append]
        refine ⟨t.paths, by simp, ?_⟩
        intro a ha b hb he
        rw [List.map_singleton, List.mem_singleton] at hb
        rw [he, hb] at ha
        exact h ha }

/-- `Store.Delete`. -/
def Folders.remove (t : Folders) (id : Nat) : Folders :=
  { t.toTable.delete (fun r => r.id == id) with
    paths := t.paths.sublist (List.filter_sublist.map RootFolder.path) }

/-- What of a series row is looked at here. -/
structure SeriesRow where
  title : String
  path : String
  deriving DecidableEq, Repr

inductive Response
  | badRequest (message : String)
  | notFound (message : String)
  | internalServerError
  | conflict (message : String) (affectedSeries : List String)
  | noContent
  deriving DecidableEq, Repr

/-- Which store calls fail. -/
structure Faults where
  get : Bool := false
  series : Bool := false
  delete : Bool := false

/-- `affectedSeriesTitles`; without a series store nothing is affected. -/
def affectedSeriesTitles (series : Option (List SeriesRow)) (root : String) : List String :=
  match series with
  | none => []
  | some all => ((all.filter (fun s => s.path ≠ "" ∧ (SlashPath.dir s.path).render = root)).map
      SeriesRow.title).take 5

/-- `rootFolderHandler.delete`. -/
def delete (f : Faults) (id : String) (series : Option (List SeriesRow)) (t : Folders) :
    Response × Folders :=
  match Digits.parseInt id with
  | none => (.badRequest "invalid id", t)
  | some id =>
    if f.get then (.internalServerError, t)
    else match if 0 ≤ id then t.get id.toNat else none with
      | none => (.notFound "root folder not found", t)
      | some target =>
        if f.series ∧ series.isSome then (.internalServerError, t)
        else
          let affected := affectedSeriesTitles series target.path
          if affected.length > 0 then
            (.conflict "root folder is still referenced by series; reassign or remove them first"
              affected, t)
          else if f.delete then (.internalServerError, t)
          else (.noContent, t.remove target.id)

inductive BackfillError
  | listSeries
  | create (root : String)
  deriving DecidableEq, Repr

/-- The loop of `BackfillFromSeries`; `fails` says for which roots the store fails. -/
def backfillFrom (fails : String → Bool) (seen : List String) (t : Folders) :
    List SeriesRow → Folders × Except BackfillError Unit
  | [] => (t, .ok ())
  | s :: rest =>
    if s.path = "" then backfillFrom fails seen t rest
    else
      let root := (SlashPath.dir s.path).render
      if root ∈ seen then backfillFrom fails seen t rest
      else if fails root then (t, .error (.create root))
      else match t.create root with
        | .ok t => backfillFrom fails (root :: seen) t rest
        | .error .alreadyExists => backfillFrom fails (root :: seen) t rest
        | .error .pathRequired => (t, .error (.create root))

/-- `BackfillFromSeries`; `none` is a series list that cannot be read. -/
def backfillFromSeries (fails : String → Bool) (t : Folders) :
    Option (List SeriesRow) → Folders × Except BackfillError Unit
  | none => (t, .error .listSeries)
  | some all => backfillFrom fails [] t all

section Paths

/-- `path` is a spelling of `root`, a slash and one more element. -/
def Holds (root last path : String) : Prop :=
  '/' ∉ last.toList ∧
    ((∃ front, path = front ++ "/" ++ last ∧ (SlashPath.clean (front ++ "/")).render = root) ∨
      path = last ∧ root = ".")

/-- `path` lies below `root` by one component or more. -/
def StrictlyBelow (root path : String) : Prop :=
  (SlashPath.clean path).rooted = (SlashPath.clean root).rooted ∧
    ∃ rest, rest ≠ [] ∧ ".." ∉ rest ∧
      (SlashPath.clean path).parts = (SlashPath.clean root).parts ++ rest

/-- A text is cut at its last slash. -/
theorem last_slash (path : String) : '/' ∉ path.toList ∨
    ∃ front last, path = front ++ "/" ++ last ∧ '/' ∉ last.toList := by
  by_cases h : '/' ∈ path.toList
  · obtain ⟨a, b, hab, ha⟩ := List.eq_append_cons_of_mem (List.mem_reverse.mpr h)
    have hlist : path.toList = b.reverse ++ '/' :: a.reverse := by
      rw [← List.reverse_reverse path.toList, hab]
      simp
    refine .inr ⟨String.ofList b.reverse, String.ofList a.reverse, ?_, by simpa using ha⟩
    apply String.toList_injective
    simp [hlist]
  · exact .inl h

theorem dir_eq_iff (root path : String) :
    (SlashPath.dir path).render = root ↔ ∃ last, Holds root last path := by
  constructor
  · rintro rfl
    rcases last_slash path with h | ⟨front, last, rfl, hlast⟩
    · exact ⟨path, h, .inr ⟨rfl, by rw [SlashPath.dir_of_noSlash h]; rfl⟩⟩
    · exact ⟨last, hlast, .inl ⟨front, rfl, by rw [SlashPath.dir_append front hlast]⟩⟩
  · rintro ⟨last, hlast, ⟨front, rfl, h⟩ | ⟨rfl, rfl⟩⟩
    · rw [SlashPath.dir_append front hlast, h]
    · rw [SlashPath.dir_of_noSlash hlast]
      rfl

end Paths

section Backfill

variable {t t' : Folders} {root p : String} {ss : List SeriesRow} {s : SeriesRow}
  {fails : String → Bool} {seen : List String}

def Folders.has (t : Folders) (path : String) : Prop := path ∈ t.rows.map RootFolder.path

/-- What `Create` can do. -/
theorem create_cases (t : Folders) (p : String) :
    (Text.trimSpace p = "" ∧ t.create p = .error .pathRequired) ∨
    Text.trimSpace p ≠ "" ∧
      ((t.has (Text.trimSpace p) ∧ t.create p = .error .alreadyExists) ∨
      ∃ t', t.create p = .ok t' ∧ ∀ path, t'.has path ↔ t.has path ∨ path = Text.trimSpace p) := by
  unfold Folders.create
  by_cases hempty : Text.trimSpace p = ""
  · exact .inl ⟨hempty, if_pos hempty⟩
  · refine .inr ⟨hempty, ?_⟩
    dsimp only
    rw [if_neg hempty]
    split
    · rename_i hmem
      exact .inl ⟨hmem, rfl⟩
    · refine .inr ⟨_, rfl, fun path => ?_⟩
      show path ∈ (t.rows ++ [_]).map RootFolder.path ↔ _
      rw [List.map_append, List.mem_append, List.map_singleton, List.mem_singleton]
      rfl

/-- The directory of some series is `root` up to white space at its ends, and those before it let
the backfill go on. -/
def Respelled (root : String) (ss : List SeriesRow) : Prop :=
  root ≠ "" ∧ ∃ pre s post, ss = pre ++ s :: post ∧
    (∀ s' ∈ pre, s'.path ≠ "" → Text.trimSpace (SlashPath.dir s'.path).render ≠ "") ∧
    s.path ≠ "" ∧ Text.trimSpace (SlashPath.dir s.path).render = root

theorem respelled_cons : Respelled root (s :: ss) ↔
    root ≠ "" ∧ s.path ≠ "" ∧ Text.trimSpace (SlashPath.dir s.path).render = root ∨
    (s.path ≠ "" → Text.trimSpace (SlashPath.dir s.path).render ≠ "") ∧ Respelled root ss := by
  constructor
  · rintro ⟨hroot, pre, s', post, hss, hpre, hne, htrim⟩
    cases pre with
    | nil =>
      rw [List.nil_append, List.cons.injEq] at hss
      rw [hss.1]
      exact .inl ⟨hroot, hne, htrim⟩
    | cons s₀ pre =>
      rw [List.cons_append, List.cons.injEq] at hss
      rw [List.forall_mem_cons] at hpre
      exact .inr ⟨hss.1 ▸ hpre.1, hroot, pre, s', post, hss.2, hpre.2, hne, htrim⟩
  · rintro (⟨hroot, hne, htrim⟩ | ⟨hs, hroot, pre, s', post, rfl, hpre, hne, htrim⟩)
    · exact ⟨hroot, [], s, ss, rfl, by simp, hne, htrim⟩
    · refine ⟨hroot, s :: pre, s', post, rfl, ?_, hne, htrim⟩
      rw [List.forall_mem_cons]
      exact ⟨hs, hpre⟩

/-- The roots that were seen are in the table. -/
def Known (seen : List String) (t : Folders) : Prop :=
  ∀ d ∈ seen, Text.trimSpace d ≠ "" ∧ t.has (Text.trimSpace d)

/-- One turn of the loop: it ends here, or the root of the series is there from now on. -/
theorem backfill_step (fails : String → Bool) (s : SeriesRow) (ss : List SeriesRow)
    (hseen : Known seen t) :
    ((backfillFrom fails seen t (s :: ss)).1 = t ∧ s.path ≠ "" ∧
      (fails (SlashPath.dir s.path).render = true ∨
        Text.trimSpace (SlashPath.dir s.path).render = "")) ∨
    (s.path ≠ "" → Text.trimSpace (SlashPath.dir s.path).render ≠ "") ∧ ∃ seen' t',
      Known seen' t' ∧ backfillFrom fails seen t (s :: ss) = backfillFrom fails seen' t' ss ∧
      ∀ path, t'.has path ↔
        t.has path ∨ s.path ≠ "" ∧ path = Text.trimSpace (SlashPath.dir s.path).render := by
  by_cases hempty : s.path = ""
  · exact .inr ⟨fun hne => absurd hempty hne, seen, t, hseen, if_pos hempty, by simp [hempty]⟩
  have hturn : backfillFrom fails seen t (s :: ss) = _ := if_neg hempty
  rw [hturn]
  by_cases hmem : (SlashPath.dir s.path).render ∈ seen
  · refine .inr ⟨fun _ => (hseen _ hmem).1, seen, t, hseen, if_pos hmem, fun path => ?_⟩
    refine ⟨.inl, ?_⟩
    rintro (h | ⟨-, rfl⟩)
    · exact h
    · exact (hseen _ hmem).2
  rw [if_neg hmem]
  by_cases hfails : fails (SlashPath.dir s.path).render = true
  · rw [if_pos hfails]
    exact .inl ⟨rfl, hempty, .inl hfails⟩
  rw [if_neg hfails]
  rcases create_cases t (SlashPath.dir s.path).render with
    ⟨htrim, hc⟩ | ⟨htrim, ⟨hhas, hc⟩ | ⟨t', hc, hhas⟩⟩
  all_goals rw [hc]
  · exact .inl ⟨rfl, hempty, .inr htrim⟩
  · refine .inr ⟨fun _ => htrim, _, t, List.forall_mem_cons.mpr ⟨⟨htrim, hhas⟩, hseen⟩, rfl, fun path => ?_⟩
    refine ⟨.inl, ?_⟩
    rintro (h | ⟨-, rfl⟩)
    · exact h
    · exact hhas
  · refine .inr ⟨fun _ => htrim, _, t', List.forall_mem_cons.mpr ⟨⟨htrim, (hhas _).mpr (.inr rfl)⟩, ?_⟩,
      rfl, fun path => by rw [hhas]; simp [hempty]⟩
    exact fun d hd => ⟨(hseen d hd).1, (hhas _).mpr (.inl (hseen d hd).2)⟩

/-- A backfill makes no root but those of the series. -/
theorem has_backfill (hseen : Known seen t) (h : (backfillFrom fails seen t ss).1.has root) :
    t.has root ∨ Respelled root ss := by
  induction ss generalizing seen t with
  | nil => exact .inl h
  | cons s ss ih =>
    rw [respelled_cons]
    rcases backfill_step fails s ss hseen with ⟨hstop, -⟩ | ⟨hgo, seen', t', hseen', hnext, hhas⟩
    · exact .inl (hstop ▸ h)
    · rw [hnext] at h
      rcases ih hseen' h with hr | hr
      · rcases (hhas root).mp hr with hr | ⟨hne, rfl⟩
        · exact .inl hr
        · exact .inr (.inl ⟨hgo hne, hne, rfl⟩)
      · exact .inr (.inr ⟨hgo, hr⟩)

/-- When no call fails it makes these. -/
theorem backfill_has (hseen : Known seen t) (h : t.has root ∨ Respelled root ss) :
    (backfillFrom (fun _ => false) seen t ss).1.has root := by
  induction ss generalizing seen t with
  | nil =>
    rcases h with h | ⟨-, pre, s, post, hss, -⟩
    · exact h
    · simp at hss
  | cons s ss ih =>
    rw [respelled_cons] at h
    rcases backfill_step (fun _ => false) s ss hseen with
      ⟨hstop, hne, hfails | htrim⟩ | ⟨hgo, seen', t', hseen', hnext, hhas⟩
    · cases hfails
    · rw [hstop]
      rcases h with h | ⟨hroot, -, h⟩ | ⟨hgo, -⟩
      · exact h
      · exact absurd (h.symm.trans htrim) hroot
      · exact absurd htrim (hgo hne)
    · rw [hnext]
      apply ih hseen'
      rcases h with h | ⟨-, hne, h⟩ | ⟨-, h⟩
      · exact .inl ((hhas root).mpr (.inl h))
      · exact .inl ((hhas root).mpr (.inr ⟨hne, h.symm⟩))
      · exact .inr h

end Backfill

section Delete

variable {t : Folders} {folder : RootFolder} {ss : List SeriesRow} {id : String}

theorem affected_length_pos :
    (affectedSeriesTitles (some ss) root).length > 0 ↔
      ∃ s ∈ ss, s.path ≠ "" ∧ (SlashPath.dir s.path).render = root := by
  unfold affectedSeriesTitles
  rw [gt_iff_lt, List.length_pos_iff, ne_eq, List.take_eq_nil_iff]
  simp

/-- With stores that work, a folder is removed unless the directory of some series is its path. -/
theorem delete_eq (hf : folder ∈ t.rows) (hid : Digits.parseInt id = some (folder.id : Int)) :
    (delete {} id (some ss) t).2 =
      if ∃ s ∈ ss, s.path ≠ "" ∧ (SlashPath.dir s.path).render = folder.path then t
      else t.remove folder.id := by
  have hget : t.get folder.id = some folder := Table.get_eq_some.mpr ⟨hf, rfl⟩
  unfold delete
  rw [hid]
  simp only [Int.natCast_nonneg, if_true, Int.toNat_natCast, hget, affected_length_pos]
  simp only [Bool.false_eq_true, false_and, if_false]
  split
  · rfl
  · rfl

/-- Once it is removed, no row has the path of the folder. -/
theorem not_has_remove (hf : folder ∈ t.rows) : ¬ (t.remove folder.id).has folder.path := by
  intro h
  obtain ⟨r, hr, hpath⟩ := List.mem_map.mp h
  obtain ⟨hmem, hid⟩ := List.mem_filter.mp hr
  have hsame : r = folder := List.inj_on_of_nodup_map t.paths hmem hf hpath
  simp [hsame] at hid

theorem removed_iff (hf : folder ∈ t.rows) (hid : Digits.parseInt id = some (folder.id : Int))
    (ss : List SeriesRow) :
    folder ∉ (delete {} id (some ss) t).2.rows ↔
      ¬ ∃ s ∈ ss, s.path ≠ "" ∧ (SlashPath.dir s.path).render = folder.path := by
  rw [delete_eq hf hid]
  split
  · rename_i h
    exact ⟨fun hn => absurd hf hn, fun hn => absurd h hn⟩
  · rename_i h
    exact ⟨fun _ => h, fun _ hmem => not_has_remove hf (List.mem_map_of_mem hmem)⟩

/-- `DELETE` removes a folder if and only if no series has a path that is the folder's, a slash and
one more element; and when it does, a backfill from the same series does not bring the folder back,
whatever fails in it, if and only if none of their directories is its path up to white space. -/
theorem delete_removes_iff (hf : folder ∈ t.rows)
    (hid : Digits.parseInt id = some (folder.id : Int)) :
    (folder ∉ (delete {} id (some ss) t).2.rows ↔
      ∀ s ∈ ss, s.path ≠ "" → ∀ last, ¬ Holds folder.path last s.path) ∧
    (folder ∉ (delete {} id (some ss) t).2.rows →
      ((∀ fails, ¬ (backfillFromSeries fails (delete {} id (some ss) t).2 (some ss)).1.has folder.path) ↔
        ¬ Respelled folder.path ss)) := by
  have hremoved := removed_iff hf hid ss
  refine ⟨?_, fun hgone => ?_⟩
  · rw [hremoved]
    simp only [dir_eq_iff, not_exists, not_and]
  · rw [delete_eq hf hid, if_neg (hremoved.mp hgone)]
    have hseen : Known [] (t.remove folder.id) := fun d hd => absurd hd List.not_mem_nil
    constructor
    · intro hnot hr
      exact hnot _ (backfill_has hseen (.inr hr))
    · intro hr fails hhas
      rcases has_backfill hseen hhas with hhas | hhas
      · exact not_has_remove hf hhas
      · exact hr hhas

def tv : RootFolder := ⟨1, "/tv"⟩

def oneFolder : Folders where
  rows := [tv]
  next := 2
  unique := by decide
  below := by decide
  paths := by decide

theorem delete_removes_unused :
    tv ∉ (delete {} "1" (some [⟨"Show", "/anime/Show"⟩]) oneFolder).2.rows := by
  have hmem : tv ∈ oneFolder.rows := by decide
  refine (delete_removes_iff hmem (by decide +kernel)).1.mpr ?_
  intro s hs _ last hl
  rw [List.mem_singleton.mp hs] at hl
  exact absurd ((dir_eq_iff _ _).mpr ⟨last, hl⟩) (by decide +kernel)

/-- A series two levels below does not keep its root folder; one whose path is the folder's with a
slash does; and the folder of a series in `/tv ` comes back. -/
theorem delete_in_use :
    (StrictlyBelow "/tv" "/tv/a/Show" ∧
      (delete {} "1" (some [⟨"Show", "/tv/a/Show"⟩]) oneFolder).1 = .noContent) ∧
    (¬ StrictlyBelow "/tv" "/tv/" ∧ tv ∈ (delete {} "1" (some [⟨"Show", "/tv/"⟩]) oneFolder).2.rows) ∧
    ((delete {} "1" (some [⟨"Show", "/tv /Show"⟩]) oneFolder).1 = .noContent ∧
      (backfillFromSeries (fun _ => false)
        (delete {} "1" (some [⟨"Show", "/tv /Show"⟩]) oneFolder).2
        (some [⟨"Show", "/tv /Show"⟩])).1.rows = [⟨2, "/tv"⟩]) := by
  refine ⟨⟨⟨by decide +kernel, ["a", "Show"], by simp, by decide, by decide +kernel⟩,
    by decide +kernel⟩, ⟨?_, by decide +kernel⟩, by decide +kernel, by decide +kernel⟩
  rintro ⟨-, rest, hrest, -, h⟩
  have hparts : (SlashPath.clean "/tv/").parts = (SlashPath.clean "/tv").parts := by decide +kernel
  rw [hparts] at h
  exact hrest (List.self_eq_append_right.mp h)

end Delete

end Sonarr.Api.RootFolders
