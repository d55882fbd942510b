import Sonarr.Api.MonitoringPolicy

/-! `PUT /api/v3/series/{id}` and `PUT /api/v6/series/{id}`. -/
namespace Sonarr.Api
open Lib

/-- The body of a request; a field that it leaves out is `none`. -/
structure SeriesBody where
  title : Option String
  tvdbID : Option Int
  slug : Option String
  status : Option String
  seriesType : Option String
  path : Option String
  monitored : Option Bool
  qualityProfileID : Option Int
  seasonFolder : Option Bool
  monitorNewItems : Option String
  /-- The seasons it lists, by their numbers. -/
  seasons : List (Int × Bool)
  deriving DecidableEq, Repr

/-- What the v3 handler decodes: all but a pointer gets its zero value. -/
def SeriesBody.inputV3 (body : SeriesBody) : SeriesInput where
  title := body.title.getD ""
  tvdbID := body.tvdbID.getD 0
  slug := body.slug.getD ""
  status := body.status.getD ""
  seriesType := body.seriesType.getD ""
  path := body.path.getD ""
  monitored := body.monitored.getD false
  qualityProfileID := body.qualityProfileID.getD 0
  seasonFolder := body.seasonFolder
  monitorNewItems := body.monitorNewItems.getD ""
  seasons := body.seasons
  addOptions := none

/-- The input of the v6 handler, which has fewer fields. -/
structure SeriesInputV6 where
  title : String
  tvdbID : Int
  slug : String
  status : String
  seriesType : String
  path : String
  monitored : Bool
  seasons : List (Int × Bool)
  deriving DecidableEq, Repr

def SeriesBody.inputV6 (body : SeriesBody) : SeriesInputV6 where
  title := body.title.getD ""
  tvdbID := body.tvdbID.getD 0
  slug := body.slug.getD ""
  status := body.status.getD ""
  seriesType := body.seriesType.getD ""
  path := body.path.getD ""
  monitored := body.monitored.getD false
  seasons := body.seasons

def SeriesInput.apply (input : SeriesInput) (existing : Series) : Series :=
  { existing with
    title := orDefault input.title existing.title
    status := orDefault input.status existing.status
    seriesType := orDefault input.seriesType existing.seriesType
    path := orDefault input.path existing.path
    slug := orDefault input.slug existing.slug
    qualityProfileID :=
      if input.qualityProfileID = 0 then existing.qualityProfileID else input.qualityProfileID
    seasonFolder := input.seasonFolder.getD existing.seasonFolder
    monitorNewItems := orDefault input.monitorNewItems existing.monitorNewItems
    monitored := input.monitored }

def SeriesInputV6.apply (input : SeriesInputV6) (existing : Series) : Series :=
  { existing with
    title := orDefault input.title existing.title
    status := orDefault input.status existing.status
    seriesType := orDefault input.seriesType existing.seriesType
    path := orDefault input.path existing.path
    slug := orDefault input.slug existing.slug
    monitored := input.monitored }

inductive UpdateResponse
  | badRequest
  | notFound
  | internalServerError
  | ok (series : Series) (seasons : List Season)
  deriving DecidableEq, Repr

def UpdateResponse.accepted : UpdateResponse → Bool
  | .ok _ _ => true
  | _ => false

/-- `Update` of the store. A quality profile that is referred to has to exist. -/
def storeUpdate (profiles : List Int) (lib : Library) (s : Series) : Option Library :=
  if s.qualityProfileID ≠ 0 ∧ s.qualityProfileID ∉ profiles then none else lib.updateSeries s

/-- `seriesHandler.update`, for what an input makes of the stored series; a body that does not decode
has none. -/
def update (profiles : List Int) (id : Nat) (input : Option ((Series → Series) × List (Int × Bool)))
    (lib : Library) : UpdateResponse × Library :=
  match lib.series.get id with
  | none => (.notFound, lib)
  | some existing => match input with
    | none => (.badRequest, lib)
    | some (apply, seasons) => match storeUpdate profiles lib (apply existing) with
      | none => (.internalServerError, lib)
      | some lib =>
        let lib := upsertSeasons existing.id seasons lib
        (.ok (apply existing) (lib.listSeasons existing.id), lib)

def updateV3 (profiles : List Int) (id : Nat) (body : Option SeriesBody) (lib : Library) :
    UpdateResponse × Library :=
  update profiles id (body.map (fun b => (b.inputV3.apply, b.inputV3.seasons))) lib

def updateV6 (profiles : List Int) (id : Nat) (body : Option SeriesBody) (lib : Library) :
    UpdateResponse × Library :=
  update profiles id (body.map (fun b => (b.inputV6.apply, b.inputV6.seasons))) lib

/-- A field that is left out stays, and one that is given and not empty is taken. -/
def Follows (empty : α) (field : Option α) (before after : α) : Prop :=
  (field = none → after = before) ∧ ∀ v, field = some v → v ≠ empty → after = v

/-- What a body asks for of a series. -/
structure Partial (body : SeriesBody) (before after : Series) : Prop where
  title : Follows "" body.title before.title after.title
  status : Follows "" body.status before.status after.status
  seriesType : Follows "" body.seriesType before.seriesType after.seriesType
  path : Follows "" body.path before.path after.path
  slug : Follows "" body.slug before.slug after.slug
  qualityProfileID :
    Follows 0 body.qualityProfileID before.qualityProfileID after.qualityProfileID
  seasonFolder : after.seasonFolder = body.seasonFolder.getD before.seasonFolder
  monitorNewItems :
    Follows "" body.monitorNewItems before.monitorNewItems after.monitorNewItems
  monitored : after.monitored = body.monitored.getD before.monitored

/-- Only seasons of the series that are listed change. -/
def SeasonsKept (id : Nat) (body : SeriesBody) (lib lib' : Library) : Prop :=
  ∀ s : Season, s.seriesID ≠ id ∨ s.seasonNumber ∉ body.seasons.map Prod.fst →
    (s ∈ lib'.seasons ↔ s ∈ lib.seasons)

/-- A request that is accepted does what its body asks for, and another one changes nothing. -/
structure Respects (id : Nat) (body : SeriesBody) (before : Series) (lib : Library)
    (out : UpdateResponse × Library) : Prop where
  done : out.1.accepted = true →
    (∃ after, out.2.series.get id = some after ∧ Partial body before after) ∧
      SeasonsKept id body lib out.2
  refused : out.1.accepted = false → out.2 = lib

section Fields

theorem follows_orDefault (field : Option String) (before : String) :
    Follows "" field before (orDefault (field.getD "") before) := by
  refine ⟨?_, ?_⟩
  · rintro rfl
    rfl
  · rintro v rfl hv
    exact if_neg hv

theorem stored_orDefault (field : Option String) (before : String) :
    Follows "" field before (orDefault (orDefault (field.getD "") before) "all") ↔
      (field = none → before ≠ "") := by
  cases field with
  | none =>
    by_cases hbefore : before = ""
    · simp [Follows, orDefault, hbefore]
    · simp [Follows, orDefault, hbefore]
  | some v =>
    by_cases hv : v = ""
    · simp [Follows, hv]
    · simp [Follows, orDefault, hv]

theorem follows_keep (empty : α) (field : Option α) (before : α) :
    Follows empty field before before ↔ ∀ v, field = some v → v ≠ empty → v = before := by
  simp only [Follows, implies_true, true_and]
  exact forall_congr' fun v => forall₂_congr fun _ _ => eq_comm

theorem getD_monitored_iff (field : Option Bool) (before : Bool) :
    field.getD false = field.getD before ↔ (field = none → before = false) := by
  cases field <;> simp [eq_comm]

end Fields

/-- What the v3 handler leaves of a series is what the body asks for. -/
theorem partial_v3_iff (body : SeriesBody) (before : Series) :
    Partial body before (body.inputV3.apply before).stored ↔
      (body.monitored = none → before.monitored = false) ∧
        (body.monitorNewItems = none → before.monitorNewItems ≠ "") := by
  rw [← getD_monitored_iff, ← stored_orDefault]
  constructor
  · intro h
    exact ⟨h.monitored, h.monitorNewItems⟩
  · rintro ⟨hmonitored, hnew⟩
    exact {
      title := follows_orDefault ..
      status := follows_orDefault ..
      seriesType := follows_orDefault ..
      path := follows_orDefault ..
      slug := follows_orDefault ..
      qualityProfileID := by
        refine ⟨?_, ?_⟩
        · intro hnone
          simp [Series.stored, SeriesInput.apply, SeriesBody.inputV3, hnone]
        · intro v hv hne
          simp [Series.stored, SeriesInput.apply, SeriesBody.inputV3, hv, hne]
      seasonFolder := rfl
      monitorNewItems := hnew
      monitored := hmonitored }

/-- The fields that the v6 handler does not read are left as they are. -/
theorem partial_v6_iff (body : SeriesBody) (before : Series) :
    Partial body before (body.inputV6.apply before).stored ↔
      (body.monitored = none → before.monitored = false) ∧
        (∀ v, body.qualityProfileID = some v → v ≠ 0 → v = before.qualityProfileID) ∧
        (∀ b, body.seasonFolder = some b → b = before.seasonFolder) ∧
        Follows "" body.monitorNewItems before.monitorNewItems
          (orDefault before.monitorNewItems "all") := by
  rw [← getD_monitored_iff, ← follows_keep]
  have hfolder : before.seasonFolder = body.seasonFolder.getD before.seasonFolder ↔
      ∀ b, body.seasonFolder = some b → b = before.seasonFolder := by
    cases body.seasonFolder <;> simp [eq_comm]
  rw [← hfolder]
  constructor
  · intro h
    exact ⟨h.monitored, h.qualityProfileID, h.seasonFolder, h.monitorNewItems⟩
  · rintro ⟨hmonitored, hprofile, hfolder, hnew⟩
    exact {
      title := follows_orDefault ..
      status := follows_orDefault ..
      seriesType := follows_orDefault ..
      path := follows_orDefault ..
      slug := follows_orDefault ..
      qualityProfileID := hprofile
      seasonFolder := hfolder
      monitorNewItems := hnew
      monitored := hmonitored }

/-- The flag of the last listed season whose number is stored as this one. -/
def lastFlag (number : Int) : List (Int × Bool) → Option Bool
  | [] => none
  | s :: seasons => match lastFlag number seasons with
    | some monitored => some monitored
    | none => if toInt32 s.1 = number then some s.2 else none

section Seasons
variable {lib lib' : Library} {id : Nat}

/-- A season is stored in the place of the one with its number. -/
theorem mem_upsert_season (s x : Season) (seasons : List Season) :
    s ∈ upsert Season.key x seasons ↔
      if s.key = x.key then s.monitored = x.monitored else s ∈ seasons := by
  rw [mem_upsert]
  by_cases hkey : s.key = x.key
  · obtain ⟨hid, hnumber⟩ := Prod.mk.inj hkey
    obtain ⟨_, _, monitored⟩ := s
    obtain ⟨_, _, monitored'⟩ := x
    simp_all [Season.key]
  · have hne : s ≠ x := fun heq => hkey (congrArg Season.key heq)
    simp [hkey, hne]

/-- The seasons after a request, the last entry of each number deciding. -/
theorem mem_upsertSeasons (h : lib.hasSeries id = true) (seasons : List (Int × Bool)) (s : Season) :
    s ∈ (upsertSeasons id seasons lib).seasons ↔
      match (if s.seriesID = id then lastFlag s.seasonNumber seasons else none) with
      | some monitored => s.monitored = monitored
      | none => s ∈ lib.seasons := by
  induction seasons generalizing lib with
  | nil => simp [upsertSeasons, lastFlag]
  | cons x seasons ih =>
    have hstep : (lib.upsertSeason ⟨id, toInt32 x.1, x.2⟩).getD lib =
        { lib with seasons := upsert Season.key ⟨id, toInt32 x.1, x.2⟩ lib.seasons } := by
      simp [Library.upsertSeason, h]
    have hhas : ((lib.upsertSeason ⟨id, toInt32 x.1, x.2⟩).getD lib).hasSeries id = true := by
      rw [hstep]
      exact h
    rw [upsertSeasons, List.foldl_cons, ← upsertSeasons, ih hhas, hstep, lastFlag]
    by_cases hid : s.seriesID = id
    · cases lastFlag s.seasonNumber seasons with
      | some monitored => simp [hid]
      | none =>
        simp only [hid, if_true, mem_upsert_season, Season.key, Prod.mk.injEq, true_and]
        by_cases hnumber : toInt32 x.1 = s.seasonNumber
        · simp [hnumber]
        · simp [hnumber, Ne.symm hnumber]
    · simp [hid, mem_upsert_season, Season.key]

/-- What is stored for a number that no season is listed with is there already. -/
def WrapsKept (id : Nat) (body : SeriesBody) (lib : Library) : Prop :=
  ∀ number, number ∉ body.seasons.map Prod.fst → ∀ monitored,
    lastFlag number body.seasons = some monitored → ⟨id, number, monitored⟩ ∈ lib.seasons

theorem seasonsKept_iff (h : lib.Constraints) (hid : lib.hasSeries id = true) (body : SeriesBody) :
    SeasonsKept id body lib (upsertSeasons id body.seasons lib) ↔ WrapsKept id body lib := by
  simp only [SeasonsKept, mem_upsertSeasons hid]
  constructor
  · intro hkept number hnumber monitored hflag
    have hsame := hkept ⟨id, number, monitored⟩ (.inr hnumber)
    simp only [if_true, hflag] at hsame
    exact hsame.mp trivial
  · intro hkept s hs
    by_cases hsid : s.seriesID = id
    · cases hflag : lastFlag s.seasonNumber body.seasons with
      | none => simp [hsid]
      | some monitored =>
        simp only [hsid, if_true]
        have hmem := hkept s.seasonNumber (hs.resolve_left (not_not.mpr hsid)) monitored hflag
        constructor
        · intro hm
          rw [← hsid, ← hm] at hmem
          exact hmem
        · intro hm
          have hkey : s.key = Season.key ⟨id, s.seasonNumber, monitored⟩ := by
            simp [Season.key, hsid]
          exact congrArg Season.monitored (List.inj_on_of_nodup_map h.seasons hm hmem hkey)
    · simp [hsid]

end Seasons

/-- The slug or the path that is given belongs to another series, or the profile does not exist. -/
def Refused (profiles : List Int) (profile : Int) (id : Nat) (body : SeriesBody) (lib : Library) :
    Prop :=
  (profile ≠ 0 ∧ profile ∉ profiles) ∨ ∃ r ∈ lib.series.rows, r.id ≠ id ∧
    (body.slug = some r.slug ∧ r.slug ≠ "" ∨ body.path = some r.path ∧ r.path ≠ "")

/-- What both handlers make of the columns that tell series apart. -/
structure Identified (body : SeriesBody) (before s : Series) : Prop where
  id : s.id = before.id
  tvdbID : s.tvdbID = before.tvdbID
  slug : s.slug = orDefault (body.slug.getD "") before.slug
  path : s.path = orDefault (body.path.getD "") before.path

theorem identified_v3 (body : SeriesBody) (before : Series) :
    Identified body before (body.inputV3.apply before) := ⟨rfl, rfl, rfl, rfl⟩

theorem identified_v6 (body : SeriesBody) (before : Series) :
    Identified body before (body.inputV6.apply before) := ⟨rfl, rfl, rfl, rfl⟩

section Store
variable {db : Database} {id : Nat} {body : SeriesBody} {before s r : Series}

theorem orDefault_eq_iff {field : Option String} {old other : String} (hne : other ≠ old) :
    other = orDefault (field.getD "") old ↔ field = some other ∧ other ≠ "" := by
  cases field with
  | none => simp [orDefault, hne]
  | some v =>
    by_cases hv : v = ""
    · simp [orDefault, hv, hne]
    · simp only [orDefault, Option.getD_some, if_neg hv, Option.some.injEq]
      constructor
      · rintro rfl
        exact ⟨rfl, hv⟩
      · rintro ⟨rfl, _⟩
        rfl

/-- A series that keeps its TVDB id clashes in what it is given. -/
theorem Identified.clashes_iff (h : Identified body before s) (hbefore : before ∈ db.series.rows)
    (hr : r ∈ db.series.rows) (hne : r.id ≠ before.id) :
    s.clashes r = true ↔
      body.slug = some r.slug ∧ r.slug ≠ "" ∨ body.path = some r.path ∧ r.path ≠ "" := by
  have hapart : before.clashes r = false := by
    by_contra hclash
    rw [Bool.not_eq_false] at hclash
    exact hne (congrArg Series.id (db.constraints.series before hbefore r hr hclash)).symm
  simp only [Series.clashes, Bool.or_eq_false_iff, beq_eq_false_iff_ne] at hapart
  obtain ⟨⟨htvdb, hslug⟩, hpath⟩ := hapart
  simp only [Series.clashes, Bool.or_eq_true, beq_iff_eq, h.tvdbID, h.slug, h.path, htvdb,
    false_or, orDefault_eq_iff hslug, orDefault_eq_iff hpath]

theorem Identified.storeUpdate_eq_none_iff (h : Identified body before s)
    (hs : db.series.get id = some before) :
    storeUpdate profiles db.toLibrary s = none ↔
      Refused profiles s.qualityProfileID id body db.toLibrary := by
  obtain ⟨hbefore, hid⟩ := Table.get_eq_some.mp hs
  have hhas : db.toLibrary.hasSeries before.id = true :=
    Library.hasSeries_iff.mpr ⟨before, hbefore, rfl⟩
  have hclash : db.toLibrary.updateSeries s = none ↔ ∃ r ∈ db.series.rows, r.id ≠ id ∧
      (body.slug = some r.slug ∧ r.slug ≠ "" ∨ body.path = some r.path ∧ r.path ≠ "") := by
    simp only [Library.updateSeries, h.id, hhas, Bool.true_and, ite_eq_left_iff, reduceCtorEq,
      imp_false, not_not, List.any_eq_true, Bool.and_eq_true, bne_iff_ne]
    refine exists_congr fun r => and_congr_right fun hr => ?_
    rw [← show before.id = id from hid]
    exact and_congr_right fun hne => h.clashes_iff hbefore hr hne
  by_cases hprofile : s.qualityProfileID ≠ 0 ∧ s.qualityProfileID ∉ profiles
  · exact iff_of_true (if_pos hprofile) (.inl hprofile)
  · rw [storeUpdate, if_neg hprofile, hclash]
    exact (or_iff_right hprofile).symm

theorem get_updateSeries {lib lib' : Library} (h : lib.updateSeries s = some lib')
    (hs : lib.series.get s.id = some before) : lib'.series.get s.id = some s.stored := by
  obtain ⟨hbefore, hkey⟩ := Table.get_eq_some.mp hs
  have hid : before.id = s.id := hkey
  refine Table.get_eq_some.mpr ⟨((Library.updateSeries_some h).2 _).mpr ⟨before, hbefore, ?_⟩, rfl⟩
  rw [if_pos hid, hid]
  rfl

/-- An update does what its body asks for just if the store refuses it or the row and the seasons
that it writes do. -/
theorem respects_update_iff (hs : db.series.get id = some before) (apply : Series → Series)
    (hid : (apply before).id = before.id) :
    Respects id body before db.toLibrary
        (update profiles id (some (apply, body.seasons)) db.toLibrary) ↔
      storeUpdate profiles db.toLibrary (apply before) = none ∨
        Partial body before (apply before).stored ∧ WrapsKept id body db.toLibrary := by
  have hbefore : before.id = id := (Table.get_eq_some.mp hs).2
  simp only [update, hs]
  cases hstore : storeUpdate profiles db.toLibrary (apply before) with
  | none =>
    refine iff_of_true ⟨?_, fun _ => rfl⟩ (.inl rfl)
    intro haccepted
    cases haccepted
  | some lib' =>
    have hu : db.toLibrary.updateSeries (apply before) = some lib' := by
      unfold storeUpdate at hstore
      split at hstore
      · cases hstore
      · exact hstore
    have hid' : (apply before).id = id := hid.trans hbefore
    have hcon := db.constraints.updateSeries hu
    have hget : lib'.series.get id = some (apply before).stored := by
      rw [← hid'] at hs ⊢
      exact get_updateSeries hu hs
    have hseasons : lib'.seasons = db.seasons := by rw [(Library.updateSeries_some hu).1]
    have hhas : lib'.hasSeries id = true :=
      Library.hasSeries_iff.mpr ⟨_, (Table.get_eq_some.mp hget).1, (Table.get_eq_some.mp hget).2⟩
    have hkept : SeasonsKept id body db.toLibrary (upsertSeasons id body.seasons lib') ↔
        WrapsKept id body db.toLibrary := by
      have h := seasonsKept_iff hcon hhas body
      simpa only [SeasonsKept, WrapsKept, hseasons] using h
    have hgot : (upsertSeasons id body.seasons lib').series.get id = some (apply before).stored := by
      rw [(upsertSeasons_spec hcon id body.seasons).2.1]
      exact hget
    simp only [hbefore, reduceCtorEq, false_or]
    constructor
    · intro h
      obtain ⟨⟨after, hafter, hfields⟩, hwraps⟩ := h.done rfl
      cases hgot.symm.trans hafter
      exact ⟨hfields, hkept.mp hwraps⟩
    · rintro ⟨hfields, hwraps⟩
      refine ⟨fun _ => ⟨⟨_, hgot, hfields⟩, hkept.mpr hwraps⟩, ?_⟩
      intro hrefused
      cases hrefused

end Store

/-- The profile that a body asks for. -/
def SeriesBody.profile (body : SeriesBody) (before : Series) : Int :=
  match body.qualityProfileID with
  | none => before.qualityProfileID
  | some v => if v = 0 then before.qualityProfileID else v

/-- A v3 update keeps what is left out just if `monitored` is given or was off and there is a rule
for new items, and no season is reached under another number; a v6 update moreover only if the
fields it does not read ask for nothing. -/
theorem partial_updates_iff (profiles : List Int) (db : Database) {id : Nat} {before : Series}
    (body : SeriesBody) (hs : db.series.get id = some before) :
    (Respects id body before db.toLibrary (updateV3 profiles id (some body) db.toLibrary) ↔
      Refused profiles (body.profile before) id body db.toLibrary ∨
        ((body.monitored = none → before.monitored = false) ∧
          (body.monitorNewItems = none → before.monitorNewItems ≠ "")) ∧
        WrapsKept id body db.toLibrary) ∧
    (Respects id body before db.toLibrary (updateV6 profiles id (some body) db.toLibrary) ↔
      Refused profiles before.qualityProfileID id body db.toLibrary ∨
        ((body.monitored = none → before.monitored = false) ∧
          (∀ v, body.qualityProfileID = some v → v ≠ 0 → v = before.qualityProfileID) ∧
          (∀ b, body.seasonFolder = some b → b = before.seasonFolder) ∧
          Follows "" body.monitorNewItems before.monitorNewItems
            (orDefault before.monitorNewItems "all")) ∧
        WrapsKept id body db.toLibrary) := by
  have hprofile : (body.inputV3.apply before).qualityProfileID = body.profile before := by
    rcases hgiven : body.qualityProfileID with _ | v <;>
      simp [SeriesInput.apply, SeriesBody.inputV3, SeriesBody.profile, hgiven]
  constructor
  · rw [← hprofile, ← (identified_v3 body before).storeUpdate_eq_none_iff hs,
      ← partial_v3_iff, ← respects_update_iff hs body.inputV3.apply rfl]
    rfl
  · have hkeep : (body.inputV6.apply before).qualityProfileID = before.qualityProfileID := rfl
    rw [← partial_v6_iff, ← hkeep, ← (identified_v6 body before).storeUpdate_eq_none_iff hs,
      ← respects_update_iff hs body.inputV6.apply rfl]
    rfl

/-- A monitored series with the first profile. -/
def andor : Series where
  id := 1
  title := "Andor"
  slug := "andor"
  path := "/tv/Andor"
  tvdbID := 393189
  status := "continuing"
  seriesType := "standard"
  monitored := true
  qualityProfileID := 1
  seasonFolder := true
  monitorNewItems := "all"

def oneSeries : Database :=
  ⟨_, Database.empty.constraints.createSeries (rfl : Library.empty.createSeries andor = some (andor, _))⟩

def emptyBody : SeriesBody where
  title := none
  tvdbID := none
  slug := none
  status := none
  seriesType := none
  path := none
  monitored := none
  qualityProfileID := none
  seasonFolder := none
  monitorNewItems := none
  seasons := []

theorem moved_monitored :
    oneSeries.series.get 1 = some andor ∧
      Respects 1 { emptyBody with path := some "/media/Andor", monitored := some true } andor
        oneSeries.toLibrary (updateV3 [1] 1
          (some { emptyBody with path := some "/media/Andor", monitored := some true })
          oneSeries.toLibrary) := by
  refine ⟨rfl, (partial_updates_iff [1] oneSeries _ rfl).1.mpr (.inr ⟨⟨?_, ?_⟩, ?_⟩)⟩
  · intro hnone
    cases hnone
  · intro _
    decide
  · intro number _ monitored hflag
    cases hflag

/-- A new path turns monitoring off, and a profile that is given to the v6 handler is ignored. -/
theorem absent_monitored_cleared :
    ¬ Respects 1 { emptyBody with path := some "/media/Andor" } andor oneSeries.toLibrary
        (updateV3 [1] 1 (some { emptyBody with path := some "/media/Andor" })
          oneSeries.toLibrary) ∧
      ¬ Respects 1 { emptyBody with monitored := some true, qualityProfileID := some 2 } andor
        oneSeries.toLibrary (updateV6 [1, 2] 1
          (some { emptyBody with monitored := some true, qualityProfileID := some 2 })
          oneSeries.toLibrary) := by
  constructor
  · intro h
    obtain ⟨⟨after, hafter, hfields⟩, _⟩ := h.done rfl
    cases hafter
    exact absurd hfields.monitored (by decide)
  · intro h
    obtain ⟨⟨after, hafter, hfields⟩, _⟩ := h.done rfl
    cases hafter
    exact absurd (hfields.qualityProfileID.2 2 rfl (by decide)) (by decide)

end Sonarr.Api
