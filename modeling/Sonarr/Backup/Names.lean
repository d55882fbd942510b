import Sonarr.Lib.AbsPath

namespace Sonarr.Backup
open Lib

/-- `filepath.Abs`; only a relative path asks for the working directory. -/
def abs (wd : Option WorkingDir) (path : String) : Option SlashPath :=
  if Text.hasPrefix path "/" then some (SlashPath.clean path)
  else wd.map (fun wd => SlashPath.absolute wd.path path)

inductive FilePathError
  | invalidName (name : String)
  | resolvePath
  | resolveDir
  | traversal (name : String)
  deriving DecidableEq, Repr

/-- `Service.FilePath`. -/
def filePath (wd : Option WorkingDir) (backupDir name : String) : Except FilePathError String :=
  if Text.contains name "/" || Text.contains name ".." then .error (.invalidName name)
  else match abs wd (SlashPath.joinText [backupDir, name]) with
    | none => .error .resolvePath
    | some path => match abs wd backupDir with
      | none => .error .resolveDir
      | some dir =>
        if Text.hasPrefix path.render (dir.render ++ "/") then .ok path.render
        else .error (.traversal name)

/-- A name that passes the first check has no slash and is not `..`. -/
theorem noSlash_of_valid (h : Text.contains name "/" = false) : '/' ∉ name.toList := by
  intro hm
  have hc : Text.contains name "/" = true := by
    rw [Text.contains_iff]
    obtain ⟨a, b, hab⟩ := List.append_of_mem hm
    exact ⟨a, b, by rw [hab, show "/".toList = ['/'] from String.toList_ofList]; simp⟩
  rw [h] at hc
  cases hc

theorem ne_dots_of_valid (h : Text.contains name ".." = false) : name ≠ ".." := by
  rintro rfl
  exact absurd h (by decide)

/-- The working directory does not matter for a rooted path. -/
theorem abs_eq (h : abs wd path = some p) :
    ∃ w : WorkingDir, p = SlashPath.absolute w.path path ∧
      ∀ path', Text.hasPrefix path' "/" = Text.hasPrefix path "/" →
        abs wd path' = some (SlashPath.absolute w.path path') := by
  unfold abs at h
  split at h
  · rename_i hr
    refine ⟨⟨"/", by decide⟩, ?_, ?_⟩
    · unfold SlashPath.absolute
      rw [if_pos hr]
      exact (Option.some.inj h).symm
    · intro path' hsame
      unfold abs SlashPath.absolute
      rw [hsame, if_pos hr, if_pos hr]
  · rename_i hr
    obtain ⟨w, rfl, rfl⟩ := Option.map_eq_some_iff.mp h
    refine ⟨w, rfl, ?_⟩
    intro path' hsame
    unfold abs
    rw [hsame, if_neg hr]
    rfl

theorem hasPrefix_longer (s : String) : Text.hasPrefix s (s ++ "/") = false := by
  rw [Bool.eq_false_iff]
  intro h
  obtain ⟨t, ht⟩ := Text.hasPrefix_iff.mp h
  have hlen := congrArg (fun s => s.toList.length) ht
  simp at hlen

/-- What `FilePath` returns is the name put below the absolute backup directory, which
is not the root. -/
theorem filePath_ok (h : filePath wd backupDir name = .ok p) :
    ∃ dir, abs wd backupDir = some dir ∧ SlashPath.Plain name ∧ dir.parts ≠ [] ∧
      (∀ e ∈ dir.parts, SlashPath.Plain e) ∧ dir.rooted = true ∧
      p = SlashPath.render ⟨true, dir.parts ++ [name]⟩ := by
  unfold filePath at h
  split at h
  · cases h
  rename_i hvalid
  rw [Bool.or_eq_true, not_or, Bool.not_eq_true, Bool.not_eq_true] at hvalid
  have hslash := noSlash_of_valid hvalid.1
  split at h
  · cases h
  rename_i path hpath
  split at h
  · cases h
  rename_i dir hdir
  split at h
  · rename_i hprefix
    obtain ⟨w, hw, hall⟩ := abs_eq hdir
    rw [hall _ (SlashPath.rooted_joinText backupDir hslash), Option.some.injEq,
      SlashPath.absolute_joinText w.rooted backupDir hslash, ← hw] at hpath
    have hdirPlain : ∀ e ∈ dir.parts, SlashPath.Plain e := hw ▸ SlashPath.absolute_plain w.rooted backupDir
    have hroot : dir = ⟨true, dir.parts⟩ := by
      rw [hw, SlashPath.absolute_eq w.rooted]
    by_cases hskip : name = "" ∨ name = "."
    · -- These names lead to the directory itself.
      have hsame : path = dir := by
        rw [← hpath, hroot]
        simp [SlashPath.push, hskip]
      rw [hsame, hasPrefix_longer] at hprefix
      cases hprefix
    · rw [not_or] at hskip
      have hplain : SlashPath.Plain name := ⟨hskip.1, hskip.2, ne_dots_of_valid hvalid.2, hslash⟩
      rw [SlashPath.push_plain hplain] at hpath
      refine ⟨dir, hdir, hplain, ?_, hdirPlain, by rw [hroot], ?_⟩
      · -- Below the root the prefix would be two slashes.
        intro hnil
        rw [hroot, hnil] at hprefix
        rw [← hpath, hnil, Text.hasPrefix_iff] at hprefix
        obtain ⟨t, ht⟩ := hprefix
        have hlist := congrArg String.toList ht
        have hsl : "/".toList = ['/'] := String.toList_ofList
        simp only [SlashPath.render, Text.join, if_true, List.nil_append, String.toList_append, hsl,
          String.toList_empty, List.append_nil, List.cons_append,
          List.cons.injEq, true_and] at hlist
        exact hslash (hlist ▸ List.mem_cons_self)
      · rw [hpath]
        exact (Except.ok.inj h).symm
  · cases h

/-- `FilePath` refuses a name or gives the path of a direct child of the absolute backup
directory, which is not that directory. -/
theorem filePath_error_or_child (wd : Option WorkingDir) (backupDir name : String) :
    (∃ err, filePath wd backupDir name = .error err) ∨
      ∃ dir p, filePath wd backupDir name = .ok p ∧ abs wd backupDir = some dir ∧
        SlashPath.Plain name ∧ p = dir.render ++ "/" ++ name ∧ p ≠ dir.render ∧
        SlashPath.clean p = ⟨true, dir.parts ++ [name]⟩ := by
  cases h : filePath wd backupDir name with
  | error err => exact .inl ⟨err, rfl⟩
  | ok p =>
    obtain ⟨dir, hdir, hname, hne, hparts, hroot, rfl⟩ := filePath_ok h
    have hplain : ∀ e ∈ dir.parts ++ [name], SlashPath.Plain e := by
      intro e he
      rcases List.mem_append.mp he with he | he
      · exact hparts e he
      · rwa [List.mem_singleton.mp he]
    have hrender : SlashPath.render ⟨true, dir.parts ++ [name]⟩ = dir.render ++ "/" ++ name := by
      rw [SlashPath.render_child hne, ← hroot]
    refine .inr ⟨dir, _, rfl, hdir, hname, hrender, ?_, SlashPath.clean_render hplain⟩
    intro hsame
    have hlen := congrArg (fun s => s.toList.length) (hrender.symm.trans hsame)
    simp at hlen

end Sonarr.Backup
