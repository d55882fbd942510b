import Sonarr.Lib.JsonValue
import Sonarr.Lib.Table
import Sonarr.Profiles.Quality

/-! Quality profiles of the v6 API, from the body of a request to the columns of the table and
back. -/
namespace Sonarr.Api.V6.QualityProfiles
open Lib Profiles
open Json (Value)

/-- A row of `quality_profiles`, with its JSON columns. -/
structure Row where
  id : Nat
  name : String
  upgradeAllowed : Int
  cutoff : Int
  items : Value
  minFormatScore : Int
  cutoffFormatScore : Int
  formatItems : Value

instance : Keyed Row := ⟨Row.id⟩

abbrev Store := Table Row

def encodeItem (item : QualityProfileItem) : Value :=
  .obj [("QualityID", .num item.qualityID), ("Allowed", .bool item.allowed)]

def decodeItem : Value → Option QualityProfileItem :=
  Value.toStruct (fun field => match Value.ints (field "QualityID"), Value.bools (field "Allowed") with
    | some qualityID, some allowed => some ⟨qualityID, allowed⟩
    | _, _ => none)

def encodeFormatItem (item : FormatScoreItem) : Value :=
  .obj [("FormatID", .num item.formatID), ("Score", .num item.score)]

def decodeFormatItem : Value → Option FormatScoreItem :=
  Value.toStruct (fun field => match Value.ints (field "FormatID"), Value.ints (field "Score") with
    | some formatID, some score => some ⟨formatID, score⟩
    | _, _ => none)

/-- A slice that is nil is written as `null`. -/
def marshal (encode : α → Value) : Option (List α) → Value
  | none => .null
  | some l => .arr (l.map encode)

/-- The columns of a profile, whose format items may be nil. -/
def toRow (p : QualityProfile) (formatItems : Option (List FormatScoreItem)) (id : Nat) : Row where
  id := id
  name := p.name
  upgradeAllowed := if p.upgradeAllowed then 1 else 0
  cutoff := p.cutoff
  items := marshal encodeItem (some p.items)
  minFormatScore := p.minFormatScore
  cutoffFormatScore := p.cutoffFormatScore
  formatItems := marshal encodeFormatItem formatItems

/-- `qualityProfileFromSQLite`. -/
def fromRow (r : Row) : Option QualityProfile :=
  match r.items.toSlice decodeItem, r.formatItems.toSlice decodeFormatItem with
  | some items, some formatItems => some {
      id := r.id
      name := r.name
      upgradeAllowed := decide (r.upgradeAllowed ≠ 0)
      cutoff := r.cutoff
      items, formatItems
      minFormatScore := r.minFormatScore
      cutoffFormatScore := r.cutoffFormatScore }
  | _, _ => none

inductive Failure
  | notFound
  | internal
  deriving DecidableEq, Repr

/-- What comes of the row that a query gave, if it gave one. -/
def readRow : Option Row → Except Failure QualityProfile
  | none => .error .notFound
  | some r => match fromRow r with
    | none => .error .internal
    | some p => .ok p

def getByID (store : Store) (id : Nat) : Except Failure QualityProfile :=
  readRow (store.get id)

/-- `Create` of the store, for a profile without format items. -/
def storeCreate (store : Store) (p : QualityProfile) : Option (QualityProfile × Store) :=
  (fromRow (toRow p none store.next)).map (fun p' =>
    (p', store.insert (toRow p none) (fun _ => rfl)))

def storeUpdate (store : Store) (p : QualityProfile) : Store :=
  store.update (fun r => (r.id : Int) == p.id) (fun r => toRow p (some p.formatItems) r.id)
    (fun _ => rfl)

structure QualityInProfile where
  id : Int
  name : String
  source : String
  resolution : String
  deriving DecidableEq, Repr

structure ItemResource where
  quality : QualityInProfile
  allowed : Bool
  deriving DecidableEq, Repr

/-- A profile as the API gives it. The lists that are always empty are left out. -/
structure Resource where
  id : Int
  name : String
  upgradeAllowed : Bool
  cutoff : Int
  items : List ItemResource
  minFormatScore : Int
  cutoffFormatScore : Int
  deriving DecidableEq, Repr

def toResource (p : QualityProfile) : Resource where
  id := p.id
  name := p.name
  upgradeAllowed := p.upgradeAllowed
  cutoff := p.cutoff
  items := p.items.map (fun item => ⟨⟨item.qualityID, "", "", ""⟩, item.allowed⟩)
  minFormatScore := p.minFormatScore
  cutoffFormatScore := p.cutoffFormatScore

/-- The JSON of an item of a response. -/
def ItemResource.encode (item : ItemResource) : Value :=
  .obj [
    ("quality", .obj [("id", .num item.quality.id), ("name", .str item.quality.name),
      ("source", .str item.quality.source), ("resolution", .str item.quality.resolution)]),
    ("items", .arr []), ("allowed", .bool item.allowed)]

def Resource.encode (r : Resource) : Value :=
  .obj [
    ("id", .num r.id), ("name", .str r.name), ("upgradeAllowed", .bool r.upgradeAllowed),
    ("cutoff", .num r.cutoff), ("items", .arr (r.items.map ItemResource.encode)),
    ("minFormatScore", .num r.minFormatScore), ("cutoffFormatScore", .num r.cutoffFormatScore),
    ("formatItems", .arr [])]

/-- What a request submits. -/
structure Input where
  name : String
  upgradeAllowed : Bool
  cutoff : Int
  minFormatScore : Int
  cutoffFormatScore : Int
  items : List QualityProfileItem
  deriving DecidableEq, Repr

def decodeInputItem : Value → Option QualityProfileItem :=
  Value.toStruct (fun field => match Value.ints (field "qualityId"), Value.bools (field "allowed") with
    | some qualityID, some allowed => some ⟨qualityID, allowed⟩
    | _, _ => none)

def decodeInput : Value → Option Input :=
  Value.toStruct (fun field =>
    match Value.texts (field "name"), Value.bools (field "upgradeAllowed"), Value.ints (field "cutoff"),
      Value.ints (field "minFormatScore"), Value.ints (field "cutoffFormatScore"),
      Value.slices decodeInputItem (field "items") with
    | some name, some upgradeAllowed, some cutoff, some minFormatScore, some cutoffFormatScore,
        some items =>
      some { name, upgradeAllowed, cutoff, minFormatScore, cutoffFormatScore, items }
    | _, _, _, _, _, _ => none)

inductive Response
  | ok (resource : Resource)
  | created (resource : Resource)
  | badRequest
  | notFound
  | internalServerError
  deriving DecidableEq, Repr

def Failure.response : Failure → Response
  | .notFound => .notFound
  | .internal => .internalServerError

def get (store : Store) (id : Nat) : Response :=
  match getByID store id with
  | .error e => e.response
  | .ok p => .ok (toResource p)

/-- The profile that `create` stores. -/
def Input.profile (input : Input) : QualityProfile where
  id := 0
  name := input.name
  upgradeAllowed := input.upgradeAllowed
  cutoff := input.cutoff
  items := input.items
  minFormatScore := input.minFormatScore
  cutoffFormatScore := input.cutoffFormatScore
  formatItems := []

def create (store : Store) (body : Value) : Response × Store :=
  match decodeInput body with
  | none => (.badRequest, store)
  | some input => match storeCreate store input.profile with
    | none => (.internalServerError, store)
    | some (p, store) => (.created (toResource p), store)

/-- What `update` makes of the stored profile; the items that are submitted are not used. -/
def Input.apply (input : Input) (existing : QualityProfile) : QualityProfile :=
  { existing with
    name := if input.name ≠ "" then input.name else existing.name
    upgradeAllowed := input.upgradeAllowed
    cutoff := if input.cutoff > 0 then input.cutoff else existing.cutoff
    minFormatScore := input.minFormatScore
    cutoffFormatScore := input.cutoffFormatScore }

def update (store : Store) (id : Nat) (body : Value) : Response × Store :=
  match getByID store id with
  | .error e => (e.response, store)
  | .ok existing => match decodeInput body with
    | none => (.badRequest, store)
    | some input =>
      (.ok (toResource (input.apply existing)), storeUpdate store (input.apply existing))

/-- The response has what was submitted. -/
def Shows (input : Input) (response : Response) : Prop :=
  ∃ r, response = .ok r ∧ r.name = input.name ∧ r.upgradeAllowed = input.upgradeAllowed ∧
    r.cutoff = input.cutoff ∧ r.minFormatScore = input.minFormatScore ∧
    r.cutoffFormatScore = input.cutoffFormatScore ∧
    r.items.map (fun item => (⟨item.quality.id, item.allowed⟩ : QualityProfileItem)) = input.items

/-! ### Through the columns -/

variable {store : Store} {id : Nat} {p : QualityProfile}

theorem decodeItem_encodeItem (item : QualityProfileItem) :
    decodeItem (encodeItem item) = some item := by
  simp +decide [decodeItem, encodeItem, Value.toStruct, Value.intOver, Value.boolOver]

theorem decodeFormatItem_encodeFormatItem (item : FormatScoreItem) :
    decodeFormatItem (encodeFormatItem item) = some item := by
  simp +decide [decodeFormatItem, encodeFormatItem, Value.toStruct, Value.intOver]

theorem toSlice_marshal {encode : α → Value} {decode : Value → Option α}
    (h : ∀ a, decode (encode a) = some a) (l : Option (List α)) :
    (marshal encode l).toSlice decode = some (l.getD []) := by
  cases l with
  | none => rfl
  | some l =>
    have hall := Value.decodeAll_map (f := id) h l
    rwa [List.map_id] at hall

theorem fromRow_toRow (p : QualityProfile) (formatItems : Option (List FormatScoreItem))
    (id : Nat) :
    fromRow (toRow p formatItems id) =
      some { p with id := id, formatItems := formatItems.getD [] } := by
  cases hu : p.upgradeAllowed <;>
    simp [fromRow, toRow, toSlice_marshal decodeItem_encodeItem,
      toSlice_marshal decodeFormatItem_encodeFormatItem, hu]

theorem readRow_of_fromRow (h : fromRow r = some p) : readRow (some r) = .ok p := by
  simp only [readRow, h]

theorem getByID_ok (h : getByID store id = .ok p) :
    ∃ r, store.get id = some r ∧ fromRow r = some p := by
  unfold getByID readRow at h
  split at h
  · cases h
  · rename_i r hr
    split at h
    · cases h
    · rename_i q hq
      cases h
      exact ⟨r, hr, hq⟩

theorem fromRow_id (h : fromRow r = some p) : p.id = r.id := by
  unfold fromRow at h
  split at h
  · cases h
    rfl
  · cases h

theorem getByID_id (h : getByID store id = .ok p) : p.id = id := by
  obtain ⟨r, hr, hp⟩ := getByID_ok h
  have hkey : r.id = id := (Table.get_eq_some.mp hr).2
  rw [fromRow_id hp, hkey]

theorem get_storeUpdate (store : Store) (q : QualityProfile) (id : Nat) :
    (storeUpdate store q).get id = (store.get id).map (fun r =>
      if (r.id : Int) == q.id then toRow q (some q.formatItems) r.id else r) :=
  Table.get_update id

/-- A profile that is written over the stored one is what is read next, and the others stay. -/
theorem getByID_storeUpdate (h : getByID store id = .ok p) (hq : q.id = p.id) (id' : Nat) :
    getByID (storeUpdate store q) id' = if id' = id then .ok q else getByID store id' := by
  rw [getByID_id h] at hq
  unfold getByID
  rw [get_storeUpdate]
  by_cases heq : id' = id
  · obtain ⟨r, hr, -⟩ := getByID_ok h
    have hkey : r.id = id := (Table.get_eq_some.mp hr).2
    rw [if_pos heq, heq, hr, Option.map_some, hkey, hq, if_pos (beq_self_eq_true _)]
    apply readRow_of_fromRow
    rw [fromRow_toRow, Option.getD_some, ← hq]
  · rw [if_neg heq]
    cases hg : store.get id' with
    | none => rfl
    | some r =>
      have hkey : r.id = id' := (Table.get_eq_some.mp hg).2
      have hother : ((r.id : Int) == q.id) = false := by
        rw [hkey, hq, beq_eq_false_iff_ne]
        omega
      simp only [Option.map_some, hother, Bool.false_eq_true, if_false]

/-! ### Through the API -/

theorem get_of_getByID (h : getByID store id = .ok p) :
    get store id = .ok (toResource p) := by
  rw [get, h]

theorem getByID_of_get (h : get store id = .ok r) :
    ∃ p, getByID store id = .ok p ∧ toResource p = r := by
  unfold get at h
  split at h
  · rename_i e _
    cases e <;> cases h
  · rename_i p hp
    exact ⟨p, hp, Response.ok.inj h⟩

theorem Input.apply_id (input : Input) (p : QualityProfile) : (input.apply p).id = p.id := rfl

theorem update_accepted (h : getByID store id = .ok p)
    (hbody : decodeInput body = some input) :
    update store id body =
      (.ok (toResource (input.apply p)), storeUpdate store (input.apply p)) := by
  simp only [update, h, hbody]

theorem get_update_accepted (h : getByID store id = .ok p)
    (hbody : decodeInput body = some input) :
    get (update store id body).2 id = .ok (toResource (input.apply p)) := by
  apply get_of_getByID
  rw [update_accepted h hbody, getByID_storeUpdate h (input.apply_id p), if_pos rfl]

theorem items_toResource (p : QualityProfile) :
    (toResource p).items.map (fun item => (⟨item.quality.id, item.allowed⟩ : QualityProfileItem)) =
      p.items := by
  simp only [toResource, List.map_map, Function.comp_def, List.map_id']

/-- What a response must be to show a profile's own fields. -/
theorem shows_toResource (input : Input) (p : QualityProfile) :
    Shows input (.ok (toResource p)) ↔
      p.name = input.name ∧ p.upgradeAllowed = input.upgradeAllowed ∧ p.cutoff = input.cutoff ∧
        p.minFormatScore = input.minFormatScore ∧ p.cutoffFormatScore = input.cutoffFormatScore ∧
        p.items = input.items := by
  constructor
  · rintro ⟨r, hr, hname, hupgrade, hcutoff, hmin, hscore, hitems⟩
    obtain rfl : toResource p = r := Response.ok.inj hr
    rw [items_toResource] at hitems
    exact ⟨hname, hupgrade, hcutoff, hmin, hscore, hitems⟩
  · rintro ⟨hname, hupgrade, hcutoff, hmin, hscore, hitems⟩
    exact ⟨toResource p, rfl, hname, hupgrade, hcutoff, hmin, hscore,
      (items_toResource p).trans hitems⟩

theorem shows_apply (input : Input) (p : QualityProfile) :
    Shows input (.ok (toResource (input.apply p))) ↔
      (input.name = "" → p.name = "") ∧ (input.cutoff ≤ 0 → p.cutoff = input.cutoff) ∧
        p.items = input.items := by
  rw [shows_toResource]
  have hname : (input.apply p).name = input.name ↔ (input.name = "" → p.name = "") := by
    by_cases h : input.name = "" <;> simp [Input.apply, h]
  have hcutoff : (input.apply p).cutoff = input.cutoff ↔
      (input.cutoff ≤ 0 → p.cutoff = input.cutoff) := by
    unfold Input.apply
    split <;> grind
  rw [hname, hcutoff]
  exact ⟨fun ⟨hn, _, hc, _, _, hi⟩ => ⟨hn, hc, hi⟩, fun ⟨hn, hc, hi⟩ => ⟨hn, rfl, hc, rfl, rfl, hi⟩⟩

theorem create_accepted (store : Store) (hbody : decodeInput body = some input) :
    (create store body).1 = .created (toResource { input.profile with id := store.next }) ∧
      getByID (create store body).2 store.next = .ok { input.profile with id := store.next } := by
  have hstored : storeCreate store input.profile =
      some ({ input.profile with id := store.next },
        store.insert (toRow input.profile none) (fun _ => rfl)) := by
    rw [storeCreate, fromRow_toRow]
    rfl
  constructor
  · simp only [create, hbody, hstored]
  · simp only [create, hbody, hstored, getByID]
    have hget : (store.insert (toRow input.profile none) (fun _ => rfl)).get store.next =
        some (toRow input.profile none store.next) := Table.get_insert_next
    rw [hget]
    exact readRow_of_fromRow (fromRow_toRow _ _ _)

theorem shows_created (hbody : decodeInput body = some input) :
    Shows input (get (create store body).2 store.next) := by
  rw [get_of_getByID (create_accepted store hbody).2, shows_toResource]
  exact ⟨rfl, rfl, rfl, rfl, rfl, rfl⟩

/-- The items of a response carry their quality under another key than the one a request has, so
that all of them are read back as quality 0. -/
theorem decodeInputItem_encode (item : ItemResource) :
    decodeInputItem item.encode = some ⟨0, item.allowed⟩ := by
  simp +decide [decodeInputItem, ItemResource.encode, Value.toStruct, Value.boolOver]

theorem decodeInput_encode (r : Resource) :
    decodeInput r.encode = some {
      name := r.name
      upgradeAllowed := r.upgradeAllowed
      cutoff := r.cutoff
      minFormatScore := r.minFormatScore
      cutoffFormatScore := r.cutoffFormatScore
      items := r.items.map (fun item => ⟨0, item.allowed⟩) } := by
  simp +decide [decodeInput, Resource.encode, Value.toStruct, Value.intOver, Value.boolOver,
    Value.textOver, Value.toSlice, Value.decodeAll_map decodeInputItem_encode]

/-- A profile takes nothing new from an input that has its own values. -/
theorem Input.apply_eq_self (hname : input.name = p.name)
    (hupgrade : input.upgradeAllowed = p.upgradeAllowed) (hcutoff : input.cutoff = p.cutoff)
    (hmin : input.minFormatScore = p.minFormatScore)
    (hscore : input.cutoffFormatScore = p.cutoffFormatScore) : Input.apply input p = p := by
  simp only [Input.apply, hname, hupgrade, hcutoff, hmin, hscore, ite_self]

theorem update_repeated (h : getByID store id = .ok p) :
    update store id (toResource p).encode = (.ok (toResource p), storeUpdate store p) := by
  rw [update_accepted h (decodeInput_encode _), Input.apply_eq_self rfl rfl rfl rfl rfl]

/-- A profile that is created is read as it was submitted, and one that is sent what was read of it
stays as it was; of an update the items are dropped, and so are an empty name and a cutoff of 0. -/
theorem profile_written_iff (store : Store) :
    (∀ id p body input, getByID store id = .ok p → decodeInput body = some input →
      (Shows input (get (update store id body).2 id) ↔
        (input.name = "" → p.name = "") ∧ (input.cutoff ≤ 0 → p.cutoff = input.cutoff) ∧
          p.items = input.items)) ∧
    (∀ body input, decodeInput body = some input →
      ∃ r, (create store body).1 = .created r ∧ r.id = store.next ∧
        Shows input (get (create store body).2 store.next)) ∧
    ∀ id r, get store id = .ok r →
      (update store id r.encode).1 = .ok r ∧
        ∀ id', getByID (update store id r.encode).2 id' = getByID store id' := by
  refine ⟨?_, ?_, ?_⟩
  · intro id p body input h hbody
    rw [get_update_accepted h hbody, shows_apply]
  · intro body input hbody
    exact ⟨_, (create_accepted store hbody).1, rfl, shows_created hbody⟩
  · intro id r hr
    obtain ⟨p, h, rfl⟩ := getByID_of_get hr
    rw [update_repeated h]
    refine ⟨rfl, fun id' => ?_⟩
    rw [getByID_storeUpdate h rfl]
    split
    · rename_i heq
      rw [heq, h]
    · rfl

/-- A request with a name, a cutoff and the ids of the qualities, all allowed. -/
def request (name : String) (cutoff : Int) (qualities : List Int) : Value :=
  .obj [("name", .str name), ("cutoff", .num cutoff), ("items", .arr (qualities.map (fun id =>
    .obj [("qualityId", .num id), ("allowed", .bool true)])))]

def oneProfile : Store := (create .empty (request "HD" 2 [1, 2])).2

theorem profile_written_hd :
    Shows ⟨"UHD", false, 1, 0, 0, [⟨1, true⟩, ⟨2, true⟩]⟩
      (get (update oneProfile 1 (request "UHD" 1 [1, 2])).2 1) :=
  ((profile_written_iff oneProfile).1 1 ⟨1, "HD", false, 2, [⟨1, true⟩, ⟨2, true⟩], 0, 0, []⟩
    (request "UHD" 1 [1, 2]) _ rfl rfl).mpr (by decide)

/-- The order of the items is turned round and the cutoff set to 0: neither is taken. -/
theorem items_not_updated :
    (update oneProfile 1 (request "UHD" 0 [2, 1])).1 =
        .ok ⟨1, "UHD", false, 2, [⟨⟨1, "", "", ""⟩, true⟩, ⟨⟨2, "", "", ""⟩, true⟩], 0, 0⟩ ∧
      get (update oneProfile 1 (request "UHD" 0 [2, 1])).2 1 =
        .ok ⟨1, "UHD", false, 2, [⟨⟨1, "", "", ""⟩, true⟩, ⟨⟨2, "", "", ""⟩, true⟩], 0, 0⟩ ∧
      ¬ Shows ⟨"UHD", false, 0, 0, 0, [⟨2, true⟩, ⟨1, true⟩]⟩
        (get (update oneProfile 1 (request "UHD" 0 [2, 1])).2 1) := by
  have hread : get (update oneProfile 1 (request "UHD" 0 [2, 1])).2 1 =
      .ok ⟨1, "UHD", false, 2, [⟨⟨1, "", "", ""⟩, true⟩, ⟨⟨2, "", "", ""⟩, true⟩], 0, 0⟩ := by
    decide
  refine ⟨by decide, hread, ?_⟩
  rintro ⟨r, hr, -, -, hcutoff, -⟩
  rw [hread] at hr
  cases hr
  cases hcutoff

end Sonarr.Api.V6.QualityProfiles
