import Mathlib.Data.Rat.Defs
import Sonarr.Lib.StableSort
import Sonarr.Lib.Text
import Sonarr.Profiles.Quality

namespace Sonarr.Profiles
open Lib

/-- What the migration gives of a quality definition. -/
structure SeedRow where
  name : String
  source : String
  resolution : String
  minSize : ℚ
  maxSize : ℚ
  preferredSize : ℚ

/-- The rows in the order the migration inserts them. -/
def seedRows : List SeedRow :=
  [⟨"SDTV", "television", "480p", 1 / 2, 100, 50⟩,
    ⟨"WEBDL-480p", "webdl", "480p", 1 / 2, 100, 50⟩,
    ⟨"WEBRip-480p", "webrip", "480p", 1 / 2, 100, 50⟩,
    ⟨"DVD", "dvd", "480p", 1 / 2, 100, 50⟩,
    ⟨"HDTV-720p", "television", "720p", 3, 200, 95⟩,
    ⟨"WEBDL-720p", "webdl", "720p", 3, 200, 95⟩,
    ⟨"WEBRip-720p", "webrip", "720p", 3, 200, 95⟩,
    ⟨"Bluray-720p", "bluray", "720p", 3, 200, 95⟩,
    ⟨"HDTV-1080p", "television", "1080p", 3, 400, 190⟩,
    ⟨"WEBDL-1080p", "webdl", "1080p", 3, 400, 190⟩,
    ⟨"WEBRip-1080p", "webrip", "1080p", 3, 400, 190⟩,
    ⟨"Bluray-1080p", "bluray", "1080p", 3, 400, 190⟩,
    ⟨"Bluray-1080p Remux", "remux", "1080p", 10, 600, 400⟩,
    ⟨"HDTV-2160p", "television", "2160p", 10, 800, 400⟩,
    ⟨"WEBDL-2160p", "webdl", "2160p", 10, 800, 400⟩,
    ⟨"WEBRip-2160p", "webrip", "2160p", 10, 800, 400⟩,
    ⟨"Bluray-2160p", "bluray", "2160p", 10, 800, 400⟩,
    ⟨"Bluray-2160p Remux", "remux", "2160p", 20, 1200, 800⟩]

/-- The new table: `AUTOINCREMENT` numbers the rows from one on. -/
def qualityDefinitions : List QualityDefinition :=
  (seedRows.zipIdx 1).map (fun (r, i) =>
    ⟨i, r.name, r.source, r.resolution, r.minSize, r.maxSize, r.preferredSize⟩)

/-- `GetAll`, which selects `ORDER BY id`. -/
def getAll (table : List QualityDefinition) : List QualityDefinition :=
  stableSort (fun a b => decide (a.id < b.id)) table

/-- The profile "Any", which lists the definitions as `GetAll` returns them. -/
def anyProfile (id : Int) (allDefs : List QualityDefinition) : QualityProfile :=
  { id := id, name := "Any", upgradeAllowed := true, cutoff := 0
    items := allDefs.map (fun d => ⟨d.id, true⟩)
    minFormatScore := 0, cutoffFormatScore := 0, formatItems := [] }

/-- The seeding at startup; `id` is what the store assigns. -/
def seedDefaultProfile (id : Int) (existing : List QualityProfile)
    (allDefs : List QualityDefinition) : List QualityProfile :=
  if existing.length = 0 then [anyProfile id allDefs] else existing

/-- The lines of a resolution such as `720p`. -/
def lines (resolution : String) : Nat :=
  (Text.atoi (Text.trimSuffix resolution "p")).getD 0

/-- The lines of the quality with an id. -/
def linesOf (table : List QualityDefinition) (qualityID : Int) : Nat :=
  match table.find? (fun d => d.id == qualityID) with
  | some d => lines d.resolution
  | none => 0

/-- The table lists ids and resolutions in the same direction, upwards. -/
theorem qualityDefinitions_ascending : qualityDefinitions.Pairwise
    (fun a b => a.id < b.id ∧ lines a.resolution ≤ lines b.resolution) := by
  decide +kernel

theorem getAll_qualityDefinitions : getAll qualityDefinitions = qualityDefinitions := by
  apply List.Pairwise.insertionSort_eq
  apply qualityDefinitions_ascending.imp
  intro a b h
  simp only [decide_eq_false_iff_not]
  omega

/-- A profile made from definitions with ascending ids prefers the smaller id. -/
theorem anyProfile_index_lt (profileID : Int)
    (hasc : defs.Pairwise (fun a b : QualityDefinition => a.id < b.id))
    (ha : a ∈ defs) (hb : b ∈ defs) (hlt : a.id < b.id) :
    (anyProfile profileID defs).index a.id < (anyProfile profileID defs).index b.id := by
  simp only [QualityProfile.index, anyProfile, List.findIdx_map, Function.comp_def]
  induction defs with
  | nil => cases ha
  | cons c rest ih =>
    obtain ⟨hc, hrest⟩ := List.pairwise_cons.mp hasc
    have hcb : c.id ≠ b.id := by
      rcases List.mem_cons.mp ha with rfl | ha
      · omega
      · have := hc a ha
        omega
    have hb : b ∈ rest := (List.mem_cons.mp hb).resolve_left (fun h => hcb (h ▸ rfl))
    have hcb' : (c.id == b.id) = false := by simpa using hcb
    rw [List.findIdx_cons, List.findIdx_cons, hcb', cond_false]
    rcases List.mem_cons.mp ha with rfl | ha
    · rw [beq_self_eq_true, cond_true]
      exact Nat.succ_pos _
    · have hca : (c.id == a.id) = false := by simpa using Int.ne_of_lt (hc a ha)
      rw [hca, cond_false]
      exact Nat.succ_lt_succ (ih hrest ha hb)

/-- The quality of an id is one of the seeded ones. -/
def Seeded (qualityID : Int) : Prop := ∃ d ∈ qualityDefinitions, d.id = qualityID

theorem linesOf_seeded (hd : d ∈ qualityDefinitions) :
    linesOf qualityDefinitions d.id = lines d.resolution := by
  have hall : qualityDefinitions.all (fun d =>
      qualityDefinitions.find? (fun d' => d'.id == d.id) = some d) = true := by decide +kernel
  have hfind := List.all_eq_true.mp hall d hd
  simp only [decide_eq_true_eq] at hfind
  simp [linesOf, hfind]

/-- The seeded profile ranks the fewer lines first. -/
theorem anyProfile_fewer_lines_first (profileID : Int) (ha : Seeded a) (hb : Seeded b)
    (hlt : linesOf qualityDefinitions a < linesOf qualityDefinitions b) :
    (anyProfile profileID (getAll qualityDefinitions)).index a <
      (anyProfile profileID (getAll qualityDefinitions)).index b := by
  obtain ⟨da, hda, rfl⟩ := ha
  obtain ⟨db, hdb, rfl⟩ := hb
  rw [linesOf_seeded hda, linesOf_seeded hdb] at hlt
  rw [getAll_qualityDefinitions]
  have hids : da.id < db.id := by
    obtain ⟨i, hi, rfl⟩ := List.mem_iff_getElem.mp hda
    obtain ⟨j, hj, rfl⟩ := List.mem_iff_getElem.mp hdb
    have hpair := List.pairwise_iff_getElem.mp qualityDefinitions_ascending
    rcases Nat.lt_trichotomy i j with hij | rfl | hji
    · exact (hpair i j hi hj hij).1
    · omega
    · have := (hpair j i hj hi hji).2
      omega
  exact anyProfile_index_lt profileID (qualityDefinitions_ascending.imp And.left) hda hdb hids

end Sonarr.Profiles
