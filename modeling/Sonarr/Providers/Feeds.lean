import Mathlib.Data.List.Induction
import Sonarr.Lib.Compact
import Sonarr.Lib.Digits
import Sonarr.Providers.DownloadClient

/-! What the Newznab and Torznab indexers make of the items of a feed. -/
namespace Sonarr.Providers.Feeds
open Lib

/-- An `<item>` as it is decoded; the attributes are those of the two namespaces. -/
structure Item where
  title : String
  guid : String
  link : String
  pubDate : String
  enclosureURL : String
  enclosureLength : Int
  torznabAttrs : List (String × String)
  newznabAttrs : List (String × String)

/-- `indexer.Release`. The name of the indexer is filled in later; no date is the zero time. -/
structure FeedRelease where
  title : String
  guid : String
  downloadURL : String
  infoURL : String
  size : Int
  publishDate : Option Int
  protocol : DownloadProtocol
  seeders : Int
  leechers : Int
  categories : List Int
  deriving DecidableEq, Repr

/-- What `time.Parse` makes of a date, in the two layouts that are tried. -/
structure Dates where
  rfc1123Z : String → Option Int
  rfc1123 : String → Option Int

def Dates.read (dates : Dates) (pubDate : String) : Option Int :=
  if pubDate = "" then none else (dates.rfc1123Z pubDate).or (dates.rfc1123 pubDate)

/-- Everything but the attributes. -/
def fromItem (dates : Dates) (protocol : DownloadProtocol) (item : Item) : FeedRelease where
  title := item.title
  guid := item.guid
  downloadURL := item.enclosureURL
  infoURL := item.link
  size := if item.enclosureURL ≠ "" ∧ item.enclosureLength > 0 then item.enclosureLength else 0
  publishDate := dates.read item.pubDate
  protocol := protocol
  seeders := 0
  leechers := 0
  categories := []

namespace Newznab

/-- The `switch` over the name of an attribute; what is not a number is passed over. -/
def readAttr (rel : FeedRelease) (attr : String × String) : FeedRelease :=
  if attr.1 = "size" then match Digits.parseInt attr.2 with
    | some n => { rel with size := n }
    | none => rel
  else if attr.1 = "category" then match Digits.parseInt attr.2 with
    | some n => { rel with categories := rel.categories ++ [n] }
    | none => rel
  else rel

def parseRss (dates : Dates) (items : List Item) : List FeedRelease :=
  items.foldl (fun releases item =>
    releases ++ [item.newznabAttrs.foldl readAttr (fromItem dates .usenet item)]) []

end Newznab

namespace Torznab

def readAttr (rel : FeedRelease) (attr : String × String) : FeedRelease :=
  if attr.1 = "size" then match Digits.parseInt attr.2 with
    | some n => { rel with size := n }
    | none => rel
  else if attr.1 = "category" then match Digits.parseInt attr.2 with
    | some n => { rel with categories := rel.categories ++ [n] }
    | none => rel
  else if attr.1 = "seeders" then match Digits.parseInt attr.2 with
    | some n => { rel with seeders := n }
    | none => rel
  else if attr.1 = "peers" then match Digits.parseInt attr.2 with
    | some n => { rel with leechers := n }
    | none => rel
  else rel

def allAttrs (item : Item) : List (String × String) := item.torznabAttrs ++ item.newznabAttrs

def parseTorznabRss (dates : Dates) (items : List Item) : List FeedRelease :=
  items.foldl (fun releases item =>
    releases ++ [(allAttrs item).foldl readAttr (fromItem dates .torrent item)]) []

/-- The filter works in the array of the releases. -/
def parseAndFilter (dates : Dates) (minSeeders : Int) (items : List Item) : List FeedRelease :=
  let all := parseTorznabRss dates items
  if minSeeders ≤ 0 then all else Compact.compact (fun r => decide (r.seeders ≥ minSeeders)) all

end Torznab

/-- The numbers that the attributes of a name have. -/
def numbers (name : String) (attrs : List (String × String)) : List Int :=
  (attrs.filter (fun a => a.1 = name)).filterMap (fun a => Digits.parseInt a.2)

/-- The last of them, if there is one. -/
def lastNumber (name : String) (attrs : List (String × String)) (otherwise : Int) : Int :=
  (numbers name attrs).getLast?.getD otherwise

/-- What an item of a Newznab feed says. -/
def newznabItem (dates : Dates) (item : Item) : FeedRelease :=
  { fromItem dates .usenet item with
    size := lastNumber "size" item.newznabAttrs (fromItem dates .usenet item).size
    categories := numbers "category" item.newznabAttrs }

/-- What an item of a Torznab feed says, in either namespace. -/
def torznabItem (dates : Dates) (item : Item) : FeedRelease :=
  let attrs := item.torznabAttrs ++ item.newznabAttrs
  { fromItem dates .torrent item with
    size := lastNumber "size" attrs (fromItem dates .torrent item).size
    categories := numbers "category" attrs
    seeders := lastNumber "seeders" attrs 0
    leechers := lastNumber "peers" attrs 0 }

theorem numbers_concat (name : String) (attrs : List (String × String)) (a : String × String) :
    numbers name (attrs ++ [a]) =
      numbers name attrs ++ if a.1 = name then (Digits.parseInt a.2).toList else [] := by
  by_cases h : a.1 = name
  · cases hn : Digits.parseInt a.2 <;> simp [numbers, h, hn]
  · simp [numbers, h]

theorem lastNumber_concat (name : String) (attrs : List (String × String)) (a : String × String)
    (otherwise : Int) : lastNumber name (attrs ++ [a]) otherwise =
      if a.1 = name then (Digits.parseInt a.2).getD (lastNumber name attrs otherwise)
      else lastNumber name attrs otherwise := by
  rw [lastNumber, numbers_concat]
  by_cases h : a.1 = name
  · cases hn : Digits.parseInt a.2 <;> simp [lastNumber, h]
  · simp [lastNumber, h]

theorem Newznab.foldl_readAttr (rel : FeedRelease) (attrs : List (String × String)) :
    attrs.foldl Newznab.readAttr rel = { rel with
      size := lastNumber "size" attrs rel.size
      categories := rel.categories ++ numbers "category" attrs } := by
  induction attrs using List.reverseRecOn with
  | nil => simp [lastNumber, numbers]
  | append_singleton attrs a ih =>
    rw [List.foldl_append, ih, lastNumber_concat, numbers_concat]
    simp only [List.foldl_cons, List.foldl_nil, Newznab.readAttr]
    by_cases hsize : a.1 = "size"
    · cases hn : Digits.parseInt a.2 <;> simp [hsize]
    · by_cases hcat : a.1 = "category"
      · cases hn : Digits.parseInt a.2 <;> simp [hcat]
      · simp [hsize, hcat]

theorem Torznab.foldl_readAttr (rel : FeedRelease) (attrs : List (String × String)) :
    attrs.foldl Torznab.readAttr rel = { rel with
      size := lastNumber "size" attrs rel.size
      categories := rel.categories ++ numbers "category" attrs
      seeders := lastNumber "seeders" attrs rel.seeders
      leechers := lastNumber "peers" attrs rel.leechers } := by
  induction attrs using List.reverseRecOn with
  | nil => simp [lastNumber, numbers]
  | append_singleton attrs a ih =>
    rw [List.foldl_append, ih, lastNumber_concat, lastNumber_concat, lastNumber_concat, numbers_concat]
    simp only [List.foldl_cons, List.foldl_nil, Torznab.readAttr]
    by_cases hsize : a.1 = "size"
    · cases hn : Digits.parseInt a.2 <;> simp [hsize]
    · by_cases hcat : a.1 = "category"
      · cases hn : Digits.parseInt a.2 <;> simp [hcat]
      · by_cases hseed : a.1 = "seeders"
        · cases hn : Digits.parseInt a.2 <;> simp [hseed]
        · by_cases hpeers : a.1 = "peers"
          · cases hn : Digits.parseInt a.2 <;> simp [hpeers]
          · simp [hsize, hcat, hseed, hpeers]

theorem foldl_concat_eq_map {α β : Type} (f : α → β) (xs : List α) :
    xs.foldl (fun ys x => ys ++ [f x]) [] = xs.map f := by
  induction xs using List.reverseRecOn with
  | nil => rfl
  | append_singleton xs x ih => rw [List.foldl_append, ih, List.map_append]; rfl

theorem Newznab.parseRss_eq (dates : Dates) (items : List Item) :
    Newznab.parseRss dates items = items.map (newznabItem dates) := by
  rw [Newznab.parseRss, foldl_concat_eq_map]
  refine List.map_congr_left (fun item _ => ?_)
  rw [Newznab.foldl_readAttr]
  rfl

theorem Torznab.parseTorznabRss_eq (dates : Dates) (items : List Item) :
    Torznab.parseTorznabRss dates items = items.map (torznabItem dates) := by
  rw [Torznab.parseTorznabRss, foldl_concat_eq_map]
  refine List.map_congr_left (fun item _ => ?_)
  rw [Torznab.foldl_readAttr]
  rfl

/-- The loops over the attributes and the filter that writes over its own input give what the
items say: of several numbers of a name the last one, all the categories, and the releases with
enough seeders in the order of the feed. -/
theorem feeds_read_as_listed (dates : Dates) (items : List Item) (minSeeders : Int) :
    Newznab.parseRss dates items = items.map (newznabItem dates) ∧
      Torznab.parseAndFilter dates minSeeders items =
        (items.map (torznabItem dates)).filter
          (fun r => decide (minSeeders ≤ 0 ∨ minSeeders ≤ r.seeders)) := by
  refine ⟨Newznab.parseRss_eq dates items, ?_⟩
  rw [Torznab.parseAndFilter, Torznab.parseTorznabRss_eq]
  by_cases hmin : minSeeders ≤ 0
  · simp [hmin]
  · simp [hmin, Compact.compact_eq_filter]

end Sonarr.Providers.Feeds
