import Sonarr.Lib.SlashPath
import Sonarr.Library.Tables

namespace Sonarr
open Lib

/-- `appSeriesResolver.ResolveSeriesID` on the listed series; a listing that fails resolves
nothing. -/
def resolveSeriesID (listed : Option (List Series)) (path : String) : Option Nat :=
  match listed with
  | none => none
  | some all => (all.find? (fun s => Text.hasPrefix path s.path)).map Series.id

namespace Series
variable (s : Series) (path : String)

/-- The path is the series' own, or lies below it. -/
def Holds : Prop :=
  (SlashPath.clean path).rooted = (SlashPath.clean s.path).rooted ∧
    (SlashPath.clean s.path).parts <+: (SlashPath.clean path).parts ∧
    ".." ∉ (SlashPath.clean path).parts.drop (SlashPath.clean s.path).parts.length

instance : Decidable (s.Holds path) := inferInstanceAs (Decidable (_ ∧ _ ∧ _))

/-- The number of directories in the series' path. -/
def depth : Nat := (SlashPath.clean s.path).parts.length

/-- No series that holds the path has a longer path than this one, and this one holds it. -/
def Nearest (all : List Series) : Prop :=
  s.Holds path ∧ ∀ t ∈ all, t.Holds path → t.depth ≤ s.depth

end Series

/-- What a resolved change has to be: a series that holds the path, found if there is one, and of
the longest path. -/
structure Resolved (all : List Series) (path : String) (result : Option Nat) : Prop where
  inside : ∀ id, result = some id → ∃ s ∈ all, s.id = id ∧ s.Holds path
  found : (∃ s ∈ all, s.path ≠ "" ∧ s.Holds path) → result ≠ none
  longest : ∀ id, result = some id → ∀ s ∈ all, s.id = id → ∀ t ∈ all, t.Holds path →
    t.depth ≤ s.depth

/-- A series whose path merely begins the changed one, or is not the nearest, comes in the order of
titles after a nearest one whose path begins it too; and the path of some series begins it if one
holds it. -/
structure TitlesFit (all : List Series) (path : String) : Prop where
  order : ∀ before s after, all = before ++ s :: after → Text.hasPrefix path s.path = true →
    ¬ s.Nearest path all → ∃ t ∈ before, Text.hasPrefix path t.path = true ∧ t.Nearest path all
  spelled : (∃ s ∈ all, s.path ≠ "" ∧ s.Holds path) → ∃ s ∈ all, Text.hasPrefix path s.path = true

section Resolver
variable {all : List Series} {path : String}

theorem resolve_some {id : Nat} (h : resolveSeriesID (some all) path = some id) :
    ∃ s, all.find? (fun s => Text.hasPrefix path s.path) = some s ∧ s.id = id := by
  simpa [resolveSeriesID] using h

theorem resolve_of_find? (h : all.find? (fun s => Text.hasPrefix path s.path) = some s) :
    resolveSeriesID (some all) path = some s.id := by
  simp [resolveSeriesID, h]

/-- A resolved series is nearest: its id belongs to no other. -/
theorem Resolved.nearest (hids : ∀ s ∈ all, ∀ t ∈ all, s.id = t.id → s = t)
    (h : Resolved all path (resolveSeriesID (some all) path))
    (hs : all.find? (fun s => Text.hasPrefix path s.path) = some s) : s.Nearest path all := by
  have hresult := resolve_of_find? hs
  have hmem := List.mem_of_find?_eq_some hs
  obtain ⟨t, ht, hid, hholds⟩ := h.inside s.id hresult
  cases hids t ht s hmem hid
  exact ⟨hholds, h.longest s.id hresult s hmem rfl⟩

theorem Resolved.titlesFit (hids : ∀ s ∈ all, ∀ t ∈ all, s.id = t.id → s = t)
    (h : Resolved all path (resolveSeriesID (some all) path)) : TitlesFit all path := by
  constructor
  · intro before s after hall hs hfar
    cases hbefore : before.find? (fun s => Text.hasPrefix path s.path) with
    | none =>
      have hfirst : all.find? (fun s => Text.hasPrefix path s.path) = some s := by
        rw [hall, List.find?_append, hbefore]
        simp [hs]
      exact absurd (h.nearest hids hfirst) hfar
    | some t =>
      have hfirst : all.find? (fun s => Text.hasPrefix path s.path) = some t := by
        rw [hall, List.find?_append, hbefore]
        rfl
      refine ⟨t, List.mem_of_find?_eq_some hbefore, ?_, h.nearest hids hfirst⟩
      simpa using List.find?_some hbefore
  · intro hholds
    obtain ⟨id, hid⟩ := Option.ne_none_iff_exists'.mp (h.found hholds)
    obtain ⟨s, hs, _⟩ := resolve_some hid
    exact ⟨s, List.mem_of_find?_eq_some hs, by simpa using List.find?_some hs⟩

theorem TitlesFit.nearest (h : TitlesFit all path)
    (hs : all.find? (fun s => Text.hasPrefix path s.path) = some s) : s.Nearest path all := by
  obtain ⟨hstarts, before, after, hall, hbefore⟩ := List.find?_eq_some_iff_append.mp hs
  by_contra hfar
  obtain ⟨t, ht, htstarts, _⟩ := h.order before s after hall hstarts hfar
  have hno := hbefore t ht
  rw [htstarts] at hno
  cases hno

theorem TitlesFit.resolved (hids : ∀ s ∈ all, ∀ t ∈ all, s.id = t.id → s = t)
    (h : TitlesFit all path) : Resolved all path (resolveSeriesID (some all) path) := by
  constructor
  · intro id hid
    obtain ⟨s, hs, rfl⟩ := resolve_some hid
    exact ⟨s, List.mem_of_find?_eq_some hs, rfl, (h.nearest hs).1⟩
  · intro hholds
    obtain ⟨s, hs, hstarts⟩ := h.spelled hholds
    have hsome : (all.find? (fun s => Text.hasPrefix path s.path)).isSome :=
      List.find?_isSome.mpr ⟨s, hs, hstarts⟩
    obtain ⟨t, ht⟩ := Option.isSome_iff_exists.mp hsome
    rw [resolve_of_find? ht]
    simp
  · intro id hid s hs hsid t ht hholds
    obtain ⟨q, hq, rfl⟩ := resolve_some hid
    cases hids s hs q (List.mem_of_find?_eq_some hq) hsid
    exact (h.nearest hq).2 t ht hholds

end Resolver

theorem listSeries_ids (lib : Library) : ∀ s ∈ lib.listSeries, ∀ t ∈ lib.listSeries,
    s.id = t.id → s = t := by
  intro s hs t ht hid
  rw [Library.listSeries, (perm_stableSort _ _).mem_iff] at hs ht
  exact List.inj_on_of_nodup_map lib.series.unique hs ht hid

/-- A changed path is resolved as it should be exactly if the order of the titles fits it. -/
theorem change_resolved_iff (lib : Library) (path : String) :
    Resolved lib.listSeries path (resolveSeriesID (some lib.listSeries) path) ↔
      TitlesFit lib.listSeries path :=
  ⟨Resolved.titlesFit (listSeries_ids lib), TitlesFit.resolved (listSeries_ids lib)⟩

def lost : Series := ⟨1, "Lost", "lost", "/tv/Lost", 1, "", "", true, 1, true, ""⟩

def lostGirl : Series := ⟨2, "Lost Girl", "lost-girl", "/tv/Lost Girl", 2, "", "", true, 1, true, ""⟩

/-- Two series side by side, the path of one beginning the other's. -/
def sideBySide : Library :=
  { Library.empty with series := ⟨[lost, lostGirl], 3, by decide, by decide⟩ }

/-- A change below the second is taken for one of the first. -/
theorem sibling_series_resolved :
    resolveSeriesID (some sideBySide.listSeries) "/tv/Lost Girl/Season 01" = some 1 ∧
      ∀ s ∈ sideBySide.listSeries, s.Holds "/tv/Lost Girl/Season 01" ↔ s.id = 2 := by
  decide +kernel

end Sonarr
