import Sonarr.Lib.Ranking
import Sonarr.Migrate.Relations

namespace Sonarr.Migrate
open Lib Transfer Ranking Profiles

/-! What the profiles of the two programs mean. -/

/-- The names in `quality_definitions`, whose ids start at 1. -/
def definitionNames : List String :=
  ["SDTV", "WEBDL-480p", "WEBRip-480p", "DVD", "HDTV-720p", "WEBDL-720p", "WEBRip-720p",
    "Bluray-720p", "HDTV-1080p", "WEBDL-1080p", "WEBRip-1080p", "Bluray-1080p",
    "Bluray-1080p Remux", "HDTV-2160p", "WEBDL-2160p", "WEBRip-2160p", "Bluray-2160p",
    "Bluray-2160p Remux"]

/-- The quality an id stands for here. -/
def definitionName (id : Int) : Option String :=
  if 1 ≤ id then definitionNames[(id - 1).toNat]? else none

theorem definitionName_inj (ha : definitionName a = some n) (hb : definitionName b = some n) :
    a = b := by
  unfold definitionName at ha hb
  split at ha
  · split at hb
    · have hlt : (a - 1).toNat < definitionNames.length := (List.getElem?_eq_some_iff.mp ha).1
      have hnodup : definitionNames.Nodup := by decide
      have heq := (List.getElem?_inj hlt hnodup).mp (ha.trans hb.symm)
      omega
    · cases hb
  · cases ha

/-- A profile allows the quality of a name, under an id. -/
def AllowedAs (p : QualityProfile) (id : Int) (name : String) : Prop :=
  ⟨id, true⟩ ∈ p.items ∧ definitionName id = some name

/-- `a` is preferred to `b`: of two allowed qualities the one with the lower index. -/
def Prefers (p : QualityProfile) (a b : String) : Prop :=
  ∃ x y, AllowedAs p x a ∧ AllowedAs p y b ∧ p.index x < p.index y

namespace Item

def isAllowed : Item → Bool
  | quality _ _ allowed => allowed
  | group _ _ allowed => allowed

def names : Item → List String
  | quality _ name _ => [name]
  | group _ members _ => members.map Prod.snd

def hasId (c : Int) : Item → Bool
  | quality id _ _ => id == c
  | group id _ _ => id == c

def qualityId : Item → Option Int
  | quality id _ _ => some id
  | group _ _ _ => none

end Item

/-- The names a source profile allows, the worst first; a group is a tie. -/
def sourceRanks (items : List Item) : List (List String) :=
  (items.filter Item.isAllowed).map Item.names

/-- The qualities a cutoff stands for in the source: one, or those of a group. -/
def cutoffNames (items : List Item) (cutoff : Int) : List String :=
  ((items.find? (Item.hasId cutoff)).map Item.names).getD []

/-- Both profiles say the same about every quality. -/
structure SamePolicy (items : List Item) (cutoff : Int) (p : QualityProfile) : Prop where
  allowed : ∀ n, n ∈ (sourceRanks items).flatten ↔ ∃ id, AllowedAs p id n
  preference : ∀ a b, Earlier (sourceRanks items) b a ↔ Prefers p a b
  cutoff : cutoffNames items cutoff = (definitionName p.cutoff).toList

/-- The profile of a source series: a column the migration does not read. -/
def Source.profileOf (src : Source) (i : Int) : Option Int :=
  ((src.series.getD []).find? (fun r => r.id.scanInt == some i)).bind
    (fun r => r.qualityProfileId.scanInt)

/-- Migrated profiles keep their policy, and migrated series their profile. -/
structure PolicyKept (json : Decoder) (src : Source) (t : Tables) (m : Migrator) : Prop where
  profiles : ∀ s ∈ t.qualityProfiles, ∀ items, json.items s.items = some items →
    ∀ k, m.profileMap s.id = some k →
      ∃ p ∈ m.dest.profiles.rows, p.id = k ∧ SamePolicy items s.cutoff p
  series : ∀ i k, m.seriesMap i = some k → ∀ q, src.profileOf i = some q →
    ∀ j, m.profileMap q = some j →
      ∃ r ∈ m.dest.lib.series.rows, r.id = k ∧ r.qualityProfileID = j

def PreservesPolicy (json : Decoder) (src : Source) (opts : Options) : Prop :=
  ∀ env config, PolicyKept json src src.reads.upToError
    (run json src.reads { opts with dryRun := false } env (fresh config)).2

/-- The names that the ids of the allowed items stand for here, in the items' order. -/
def namesHere (items : List Item) : List String :=
  items.filterMap (fun item =>
    if item.isAllowed then definitionName item.decoded.qualityID else none)

/-- Read from the end, the allowed items name here what they name in the source, one
quality each, and so does the cutoff. -/
structure Agrees (items : List Item) (cutoff : Int) : Prop where
  ranks : (sourceRanks items).filter (fun e => !e.isEmpty) =
    (namesHere items).reverse.map (fun n => [n])
  cutoff : cutoffNames items cutoff = (definitionName cutoff).toList

/-- Every profile agrees, and no series has a profile that can be migrated. -/
structure PolicyAgrees (json : Decoder) (src : Source) (t : Tables) : Prop where
  profiles : ∀ s ∈ t.qualityProfiles, ∀ items, json.items s.items = some items →
    Agrees items s.cutoff
  series : ∀ s ∈ t.series, ∀ p ∈ t.qualityProfiles, src.profileOf s.id = some p.id →
    json.items p.items = none

/-- A profile of the source lists each quality once. -/
structure ListsOnce (items : List Item) : Prop where
  names : (sourceRanks items).flatten.Nodup
  ids : (items.filterMap Item.qualityId).Nodup

section Meaning
variable {items : List Item} {p : QualityProfile}

theorem decoded_allowed (item : Item) : item.decoded.allowed = item.isAllowed := by
  cases item <;> rfl

/-- An item whose id names a quality here is one of a quality, not a group. -/
theorem qualityId_of_named {item : Item} (h : definitionName item.decoded.qualityID = some n) :
    item.qualityId = some item.decoded.qualityID := by
  cases item with
  | quality id name allowed => rfl
  | group id members allowed => cases h

/-- An id that names a quality here belongs to one item. -/
theorem items_once (h : ListsOnce items) : items.Pairwise (fun x y =>
    x.decoded.qualityID = y.decoded.qualityID → definitionName x.decoded.qualityID = none) := by
  refine (List.pairwise_filterMap.mp h.ids).imp ?_
  intro x y hxy heq
  cases hname : definitionName x.decoded.qualityID with
  | none => rfl
  | some n =>
    have hx := qualityId_of_named hname
    have hy := qualityId_of_named (heq ▸ hname)
    exact absurd heq (hxy _ hx _ hy)

theorem mem_namesHere : n ∈ namesHere items ↔
    ∃ item ∈ items, item.isAllowed = true ∧ definitionName item.decoded.qualityID = some n := by
  simp [namesHere, List.mem_filterMap]

theorem namesHere_nodup (h : ListsOnce items) : (namesHere items).Nodup := by
  refine List.pairwise_filterMap.mpr ((items_once h).imp ?_)
  intro x y hxy n hx n' hy heq
  subst heq
  have hnx : definitionName x.decoded.qualityID = some n := (Option.ite_none_right_eq_some.mp hx).2
  have hny : definitionName y.decoded.qualityID = some n := (Option.ite_none_right_eq_some.mp hy).2
  rw [hxy (definitionName_inj hnx hny)] at hnx
  cases hnx

theorem mem_items (hp : p.items = items.map Item.decoded) : ⟨x, true⟩ ∈ p.items ↔
    ∃ item ∈ items, item.isAllowed = true ∧ item.decoded.qualityID = x := by
  rw [hp, List.mem_map]
  constructor
  · rintro ⟨item, hitem, heq⟩
    refine ⟨item, hitem, ?_, by rw [heq]⟩
    rw [← decoded_allowed, heq]
  · rintro ⟨item, hitem, hallowed, rfl⟩
    refine ⟨item, hitem, ?_⟩
    rw [← hallowed, ← decoded_allowed]

theorem allowedAs_iff (hp : p.items = items.map Item.decoded) :
    (∃ x, AllowedAs p x n) ↔ n ∈ namesHere items := by
  rw [mem_namesHere]
  constructor
  · rintro ⟨x, hmem, hname⟩
    obtain ⟨item, hitem, hallowed, rfl⟩ := (mem_items hp).mp hmem
    exact ⟨item, hitem, hallowed, hname⟩
  · rintro ⟨item, hitem, hallowed, hname⟩
    exact ⟨_, (mem_items hp).mpr ⟨item, hitem, hallowed, rfl⟩, hname⟩

/-- For ids that name a quality, the index is the place in the items. -/
theorem index_lt_iff (h : ListsOnce items) (hp : p.items = items.map Item.decoded)
    (hx : AllowedAs p x a) (hy : AllowedAs p y b) :
    p.index x < p.index y ↔ Before (items.map Item.decoded) ⟨x, true⟩ ⟨y, true⟩ := by
  rw [← hp]
  refine findIdx_lt_iff QualityProfileItem.qualityID hx.1 hy.1 ?_
  rw [hp]
  refine List.pairwise_map.mpr ((items_once h).imp ?_)
  intro u v huv heq
  have hnone := huv heq
  constructor
  · rintro rfl
    cases hnone.symm.trans hx.2
  · rintro rfl
    cases hnone.symm.trans hy.2

theorem prefers_iff (h : ListsOnce items) (hp : p.items = items.map Item.decoded) :
    Prefers p a b ↔ Before (namesHere items) a b := by
  unfold namesHere
  rw [before_filterMap]
  constructor
  · rintro ⟨x, y, hx, hy, hlt⟩
    obtain ⟨i, j, hij, hi, hj⟩ := before_map.mp ((index_lt_iff h hp hx hy).mp hlt)
    refine ⟨i, j, hij, ?_, ?_⟩
    · rw [if_pos (by rw [← decoded_allowed, hi]), hi]
      exact hx.2
    · rw [if_pos (by rw [← decoded_allowed, hj]), hj]
      exact hy.2
  · rintro ⟨i, j, hij, hi, hj⟩
    obtain ⟨hia, hin⟩ := Option.ite_none_right_eq_some.mp hi
    obtain ⟨hja, hjn⟩ := Option.ite_none_right_eq_some.mp hj
    have hx : AllowedAs p i.decoded.qualityID a :=
      ⟨(mem_items hp).mpr ⟨i, hij.mem.1, hia, rfl⟩, hin⟩
    have hy : AllowedAs p j.decoded.qualityID b :=
      ⟨(mem_items hp).mpr ⟨j, hij.mem.2, hja, rfl⟩, hjn⟩
    refine ⟨_, _, hx, hy, (index_lt_iff h hp hx hy).mpr (before_map.mpr ⟨i, j, hij, ?_, ?_⟩)⟩
    · rw [← hia, ← decoded_allowed]
    · rw [← hja, ← decoded_allowed]

/-- A profile with the source's items as they are says the same if the items agree. -/
theorem samePolicy_iff (h : ListsOnce items) (hp : p.items = items.map Item.decoded)
    (hc : p.cutoff = cutoff) : SamePolicy items cutoff p ↔ Agrees items cutoff := by
  subst hc
  have hnodup : (namesHere items).reverse.Nodup := List.nodup_reverse.mpr (namesHere_nodup h)
  have hrank := same_ranking_iff h.names hnodup
  constructor
  · intro hsame
    refine ⟨hrank.mp ⟨fun n => ?_, fun a b => ?_⟩, hsame.cutoff⟩
    · rw [hsame.allowed, allowedAs_iff hp, List.mem_reverse]
    · rw [hsame.preference, prefers_iff h hp, before_reverse]
  · intro hagree
    obtain ⟨hallowed, hprefer⟩ := hrank.mpr hagree.ranks
    refine ⟨fun n => ?_, fun a b => ?_, hagree.cutoff⟩
    · rw [hallowed, allowedAs_iff hp, List.mem_reverse]
    · rw [hprefer, prefers_iff h hp, before_reverse]

end Meaning

section Runs
variable {json : Decoder} {src : Source} {opts : Options} {env : Env} {t : Tables} {m' : Migrator}
  {report : Report} {lib₁ lib₂ lib₃ : Library} {config : Option Auth.HostConfig}

/-- The row of a migrated profile. -/
theorem Written.profile_row (w : Written json opts env t (fresh config) report m' lib₁ lib₂ lib₃)
    (h : t.UniqueIds) (hs : s ∈ t.qualityProfiles) (hk : m'.profileMap s.id = some k) :
    1 ≤ k ∧ ∃ items, json.items s.items = some items ∧ ∃ p ∈ m'.dest.profiles.rows, p.id = k ∧
      p.items = items.map Item.decoded ∧ p.cutoff = s.cutoff := by
  obtain ⟨y, hy, hid, r, hr, hpos, items, hitems, rfl⟩ := (w.profiles_copied h).known _ _ hk
  obtain rfl := List.inj_on_of_nodup_map h.qualityProfiles hy hs hid
  exact ⟨hpos, items, hitems, _, hr, rfl, rfl, rfl⟩

/-- Profiles that agree keep their policy; series lose theirs. -/
theorem policyKept_of_written
    (w : Written json opts env t (fresh config) report m' lib₁ lib₂ lib₃) (h : t.UniqueIds)
    (honce : ∀ s ∈ t.qualityProfiles, ∀ items, json.items s.items = some items → ListsOnce items)
    (hagree : PolicyAgrees json src t) : PolicyKept json src t m' := by
  constructor
  · intro s hs items hitems k hk
    obtain ⟨_, items', hitems', p, hp, hid, hpitems, hcutoff⟩ := w.profile_row h hs hk
    cases hitems.symm.trans hitems'
    exact ⟨p, hp, hid, (samePolicy_iff (honce s hs items hitems) hpitems hcutoff).mpr
      (hagree.profiles s hs items hitems)⟩
  · intro i k hk q hq j hj
    obtain ⟨s, hs, rfl, _⟩ := (w.series_copied h).known i k hk
    obtain ⟨p, hp, rfl, _⟩ := (w.profiles_copied h).known q j hj
    obtain ⟨_, items, hitems, _⟩ := w.profile_row h hp hj
    rw [hagree.series s hs p hp hq] at hitems
    cases hitems

theorem createProfile_rejected {env : Env} (h : env.rejects .qualityProfile s.id = true) :
    createProfile json env s d = none := by
  unfold createProfile
  split
  · rfl
  · rw [if_pos h]

/-- An accepted profile with readable items is migrated. -/
theorem profile_mapped {now : Entity → Int → Int} {ids : Entity → List Int}
    (w : Written json opts (Env.only now ids) t (fresh config) report m' lib₁ lib₂ lib₃)
    (h : t.UniqueIds) (hs : s ∈ t.qualityProfiles) (hids : ids .qualityProfile = [s.id])
    (hitems : json.items s.items = some items) : ∃ k, m'.profileMap s.id = some k := by
  have hacc : (Env.only now ids).rejects .qualityProfile s.id = false := accepted (by simp [hids])
  refine mapped_only .qualityProfile (fun _ _ => createProfile_rejected) w.profiles
    h.qualityProfiles hs hids ?_
  simp [createProfile, hitems, hacc]

theorem PreservesPolicy.only (h : PreservesPolicy json src opts) (ids : Entity → List Int) :
    ∃ config report m lib₁ lib₂ lib₃, Written json { opts with dryRun := false }
        (Env.only (fun _ _ => 0) ids) src.reads.upToError (fresh config) report m lib₁ lib₂ lib₃ ∧
      PolicyKept json src src.reads.upToError m := by
  obtain ⟨config, report, lib₁, lib₂, lib₃, w⟩ := written_only json src.reads
    (show { opts with dryRun := false }.dryRun = false from rfl) (fun _ _ => 0) ids
  exact ⟨config, report, _, lib₁, lib₂, lib₃, w, h (Env.only (fun _ _ => 0) ids) none⟩

theorem policyAgrees_of_preserves (hids : src.reads.upToError.UniqueIds)
    (honce : ∀ s ∈ src.reads.upToError.qualityProfiles, ∀ items,
      json.items s.items = some items → ListsOnce items)
    (h : PreservesPolicy json src opts) : PolicyAgrees json src src.reads.upToError := by
  constructor
  · intro s hs items hitems
    obtain ⟨_, _, m, _, _, _, w, hkept⟩ := h.only (fun
      | .qualityProfile => [s.id]
      | _ => [])
    obtain ⟨k, hk⟩ := profile_mapped w hids hs rfl hitems
    obtain ⟨_, items', hitems', p, hp, hid, hpitems, hcutoff⟩ := w.profile_row hids hs hk
    cases hitems.symm.trans hitems'
    obtain ⟨p', hp', hid', hsame⟩ := hkept.profiles s hs items hitems k hk
    obtain rfl : p = p' := Table.eq_of_key hp hp' (congrArg Int.toNat (hid.trans hid'.symm))
    exact (samePolicy_iff (honce s hs items hitems) hpitems hcutoff).mp hsame
  · intro s hs p hp hprofile
    cases hitems : json.items p.items with
    | none => rfl
    | some items =>
      obtain ⟨_, _, m, _, _, _, w, hkept⟩ := h.only (fun
        | .qualityProfile => [p.id]
        | .series => [s.id]
        | _ => [])
      obtain ⟨j, hj⟩ := profile_mapped w hids hp rfl hitems
      obtain ⟨k, hk, _⟩ := series_mapped w hids (List.singleton_sublist.mpr hs) rfl
        (List.pairwise_singleton ..) s List.mem_cons_self
      obtain ⟨r, hr, _, hprofileID⟩ := hkept.series s.id k hk p.id hprofile j hj
      have hzero : r.qualityProfileID = 0 := w.profile_zero hids hr
      have hpos := (w.profile_row hids hp hj).1
      omega

/-- The migration keeps the quality policy exactly of profiles whose allowed items,
read from the end, have the same names here, and of no series with a profile. -/
theorem preserves_policy_iff (json : Decoder) (src : Source) (opts : Options)
    (hids : src.reads.upToError.UniqueIds)
    (honce : ∀ s ∈ src.reads.upToError.qualityProfiles, ∀ items,
      json.items s.items = some items → ListsOnce items) :
    PreservesPolicy json src opts ↔ PolicyAgrees json src src.reads.upToError := by
  refine ⟨policyAgrees_of_preserves hids honce, ?_⟩
  intro hagree env config
  cases hkey : migrateAPIKey src.reads { opts with dryRun := false } env (fresh config) with
  | error e =>
    rw [run_error hkey]
    constructor
    · intro s _ items _ k hk
      cases hk
    · intro i k hk
      cases hk
  | ok m₁ =>
    obtain ⟨config', rfl⟩ := migrateAPIKey_fresh hkey
    obtain ⟨report, lib₁, lib₂, lib₃, w⟩ := written_of_key rfl hkey
    exact policyKept_of_written w hids honce hagree

end Runs

/-- A source with a profile, a second one whose items are no JSON, and a series that has one of
them. -/
def Source.withProfile (cutoff : Int) (items : String) (profile : Int) : Source where
  apiKey := none
  qualityProfiles := some [⟨.integer 1, .text "HD", .integer 1, .integer cutoff, .text items⟩,
    ⟨.integer 2, .text "Old", .integer 1, .integer 1, .text ""⟩]
  series := some [⟨.integer 1, .integer 81189, .text "Breaking Bad", .text "breakingbad",
    .text "ended", .text "/tv/Breaking Bad", .integer 1, .text "standard", .text "",
    .integer profile⟩]
  seasons := some []
  episodeFiles := some []
  episodes := some []
  indexers := some []
  downloadClients := some []
  notifications := some []
  history := some []

section Columns
variable {cutoff : Int} {items : String} {profile : Int} {l : List Item}

theorem withProfile_ids : (Source.withProfile cutoff items profile).reads.upToError.UniqueIds where
  qualityProfiles := (by decide : [(1 : Int), 2].Nodup)
  series := List.nodup_singleton (1 : Int)
  seasons := List.nodup_nil
  episodeFiles := List.nodup_nil
  episodes := List.nodup_nil
  indexers := List.nodup_nil
  downloadClients := List.nodup_nil
  notifications := List.nodup_nil
  history := List.nodup_nil

/-- The only items that are read are those of the first profile. -/
theorem withProfile_items (hitems : Decoder.unmarshal.items items = some l) :
    ∀ s ∈ (Source.withProfile cutoff items profile).reads.upToError.qualityProfiles,
      ∀ l', Decoder.unmarshal.items s.items = some l' → s.cutoff = cutoff ∧ l' = l := by
  have hrows : (Source.withProfile cutoff items profile).reads.upToError.qualityProfiles =
      [⟨1, "HD", true, cutoff, items⟩, ⟨2, "Old", true, 1, ""⟩] := rfl
  have hold : Decoder.unmarshal.items "" = none := by decide
  intro s hs l' hl'
  rw [hrows, List.mem_cons, List.mem_singleton] at hs
  rcases hs with rfl | rfl
  · exact ⟨rfl, Option.some.inj (hl'.symm.trans hitems)⟩
  · rw [hold] at hl'
    cases hl'

end Columns

/-- SDTV, which has id 1 in both programs, and DVD, which is not allowed. -/
def sdtvItems : String := "[\x7b\"quality\":\x7b\"id\":1,\"name\":\"SDTV\"\x7d,\"allowed\":true\x7d," ++
  "\x7b\"quality\":\x7b\"id\":2,\"name\":\"DVD\"\x7d\x7d]"

/-- The series has the profile that is not migrated. -/
theorem sdtv_kept : PreservesPolicy .unmarshal (.withProfile 1 sdtvItems 2) ⟨[], false, false⟩ := by
  have hread : Decoder.unmarshal.items sdtvItems =
      some [.quality 1 "SDTV" true, .quality 2 "DVD" false] := by
    decide +kernel
  refine (preserves_policy_iff _ _ _ withProfile_ids ?_).mpr ⟨?_, ?_⟩
  · intro s hs l hl
    rw [(withProfile_items hread s hs l hl).2]
    constructor <;> decide
  · intro s hs l hl
    obtain ⟨hcutoff, rfl⟩ := withProfile_items hread s hs l hl
    rw [hcutoff]
    constructor <;> decide
  · intro s hs p hp hprofile
    cases List.mem_singleton.mp hs
    rcases List.mem_cons.mp hp with rfl | hp
    · cases hprofile
    · cases List.mem_singleton.mp hp
      decide

/-- The ids 4 and 5 of the source are DVD and HDTV-720p here. -/
def hdItems : String :=
  "[\x7b\"quality\":\x7b\"id\":4,\"name\":\"HDTV-720p\"\x7d,\"allowed\":true\x7d," ++
  "\x7b\"quality\":\x7b\"id\":5,\"name\":\"WEBDL-720p\"\x7d,\"allowed\":true\x7d]"

/-- Other qualities are allowed, with the worse one first, and the series is left without a
profile. -/
theorem hd_profile_changed :
    (Source.withProfile 5 hdItems 1).reads.upToError.UniqueIds ∧
    ¬ PreservesPolicy .unmarshal (.withProfile 5 hdItems 1) ⟨[], false, false⟩ ∧
    (Decoder.unmarshal.items hdItems).map namesHere = some ["DVD", "HDTV-720p"] ∧
    (run .unmarshal (Source.withProfile 5 hdItems 1).reads ⟨[], false, false⟩
      ⟨fun _ _ => false, fun _ _ => 0, none⟩
      (fresh none)).2.dest.lib.series.rows.map Series.qualityProfileID = [0] := by
  have hread : Decoder.unmarshal.items hdItems =
      some [.quality 4 "HDTV-720p" true, .quality 5 "WEBDL-720p" true] := by
    decide +kernel
  refine ⟨withProfile_ids, ?_, by rw [hread]; decide, by decide +kernel⟩
  intro h
  have hagree := policyAgrees_of_preserves withProfile_ids (fun s hs l hl => by
    rw [(withProfile_items hread s hs l hl).2]
    constructor <;> decide) h
  have hranks := (hagree.profiles _ List.mem_cons_self _ hread).ranks
  revert hranks
  decide

end Sonarr.Migrate
