import Mathlib.Data.List.Pairwise
import Sonarr.Api.PagedLists

/-! In which order the paged lists of the v3 API are, and in which they are said to be. -/
namespace Sonarr.Api.V3
open Lib Slices

variable {α ρ κ : Type} [LinearOrder κ]

/-- The keys are in the direction that is reported. -/
def InOrder (direction : String) (keys : List κ) : Prop :=
  (direction = "ascending" → keys.Pairwise (· ≤ ·)) ∧
    (direction = "descending" → keys.Pairwise (· ≥ ·))

/-- How many pages a list has. -/
def pageCount (total : Nat) (pageSize : Int) : Nat :=
  (total + pageSize.toNat - 1) / pageSize.toNat

/-- All pages together, of whatever size, are in the order that each of them declares. -/
def Declared (defaultKey : String) (key : ρ → κ) (total : Nat)
    (handler : Query → Option (Paged ρ)) (direction : String) : Prop :=
  ∀ sortKey ∈ ["", defaultKey], ∀ pageSize rs,
    pages handler ⟨"", pageSize, sortKey, direction⟩ (pageCount total (positive pageSize 20)) =
      some rs →
    ∀ r ∈ rs, r.sortKey = defaultKey ∧
      InOrder r.sortDirection ((rs.flatMap Paged.records).map key)

/-- The direction that a response reports. -/
def reported (direction : String) : String :=
  if direction = "" then "descending" else direction

section Handler
variable {resource : α → ρ} {all : List α} {defaultKey : String}
  {handler : Query → Option (Paged ρ)} {page pageSize : Int}

theorem mem_pages {n : Nat} (h : pages handler q n = some rs) (hr : r ∈ rs) :
    ∃ k, handler (q.atPage k) = some r := by
  induction n generalizing rs with
  | zero =>
    cases h
    cases hr
  | succ n ih =>
    simp only [pages] at h
    split at h
    · rename_i before last hbefore hlast
      cases h
      rcases List.mem_append.mp hr with hr | hr
      · exact ih hbefore hr
      · rw [List.mem_singleton.mp hr]
        exact ⟨_, hlast⟩
    · cases h

theorem served_of_pages {n k : Nat} (h : pages handler q n = some rs) (hk : k < n) :
    (handler (q.atPage (k + 1))).isSome := by
  induction n generalizing rs with
  | zero => cases hk
  | succ n ih =>
    simp only [pages] at h
    split at h
    · rename_i before last hbefore hlast
      rcases Nat.lt_succ_iff_lt_or_eq.mp hk with hk | rfl
      · exact ih hbefore hk
      · simp [hlast]
    · cases h

theorem paged_spec (h : paged defaultKey resource all q = some r) :
    r.sortKey = (if q.sortKey = "" then defaultKey else q.sortKey) ∧
      r.sortDirection = reported q.sortDirection := by
  obtain ⟨records, _, rfl⟩ := Option.map_eq_some_iff.mp h
  exact ⟨rfl, rfl⟩

/-- A page that begins inside the list and does not panic is right. -/
theorem fits_of_served (hlen : all.length < 2 ^ 63) (hpage : 0 < page) (hsize : 0 < pageSize)
    (hsize' : pageSize < 2 ^ 63) (hinside : (page - 1) * pageSize < all.length)
    (h : (pageRecords all page pageSize).isSome) : Fits all.length page pageSize := by
  have hstart : 0 ≤ (page - 1) * pageSize := Int.mul_nonneg (by omega) (by omega)
  simp only [pageRecords, Fits] at h ⊢
  generalize (page - 1) * pageSize = start at hstart hinside h ⊢
  rw [int64_of_fits (by omega) (by omega), if_neg (by omega),
    slice_stop hstart (by omega) hsize hsize' hlen] at h
  split at h
  · exact ⟨.inl (by omega), by rw [min_eq_left (by omega)]; omega⟩
  · cases h

theorem pageCount_spec (total : Nat) (hsize : 0 < pageSize) :
    total ≤ pageCount total pageSize * pageSize.toNat ∧ pageCount total pageSize ≤ total ∧
      ∀ k, k < pageCount total pageSize → k * pageSize.toNat < total := by
  have hpos : 0 < pageSize.toNat := by omega
  simp only [pageCount]
  generalize pageSize.toNat = size at hpos
  have hdiv := Nat.div_add_mod (total + size - 1) size
  have hmod := Nat.mod_lt (total + size - 1) hpos
  rw [Nat.mul_comm] at hdiv
  have hinside : ∀ k, k < (total + size - 1) / size → k * size < total := by
    intro k hk
    have hle : (k + 1) * size ≤ (total + size - 1) / size * size := Nat.mul_le_mul_right size hk
    rw [Nat.succ_mul] at hle
    omega
  refine ⟨by omega, ?_, hinside⟩
  by_contra hmore
  have hlt := hinside total (by omega)
  have hle := Nat.le_mul_of_pos_right total hpos
  omega

/-- All pages that are served are the whole list. -/
theorem pages_whole (hlen : all.length < 2 ^ 63)
    (h : pages (paged defaultKey resource all) q
      (pageCount all.length (positive q.pageSize 20)) = some rs) :
    rs.flatMap Paged.records = all.map resource := by
  obtain ⟨hsize, hsize'⟩ := positive_bounds q.pageSize (show (0 : Int) < 20 by decide) (by decide)
  obtain ⟨hcover, hcount, hinside⟩ := pageCount_spec all.length hsize
  have hexact : ∀ k, k < pageCount all.length (positive q.pageSize 20) →
      Exact resource all (q.atPage (k + 1)) (paged defaultKey resource all (q.atPage (k + 1))) := by
    intro k hk
    have hserved := served_of_pages h hk
    have hstart : ((k + 1 : Nat) - 1 : Int) * positive q.pageSize 20 < all.length := by
      obtain ⟨m, hm⟩ := Int.eq_ofNat_of_zero_le (Int.le_of_lt hsize)
      have hlt := hinside k hk
      rw [hm, Int.toNat_natCast] at hlt
      rw [hm, Int.natCast_succ, Int.add_sub_cancel]
      exact_mod_cast hlt
    rw [paged, Option.isSome_map, Query.atPage, positive_decimal (by omega) (by omega)] at hserved
    rw [exact_iff hlen, Query.atPage, positive_decimal (by omega) (by omega)]
    exact fits_of_served hlen (by omega) hsize hsize' hstart hserved
  obtain ⟨rs', hrs', hrecords⟩ := pages_of_exact (by omega) hexact
  cases hrs'.symm.trans h
  rw [hrecords, List.take_of_length_le hcover]

/-- A page size with which the whole list is on one page. -/
theorem one_page (defaultKey : String) (resource : α → ρ) (hlen : all.length < 2 ^ 63)
    (hne : all ≠ []) (direction : String) :
    ∃ rs, pages (paged defaultKey resource all) ⟨"", Text.decimal all.length, "", direction⟩
        (pageCount all.length (positive (Text.decimal all.length) 20)) = some rs ∧
      rs.flatMap Paged.records = all.map resource := by
  have hpos : 0 < all.length := List.length_pos_of_ne_nil hne
  have hsize : positive (Text.decimal all.length) 20 = all.length := positive_decimal hpos hlen
  have hcount : pageCount all.length (positive (Text.decimal all.length) 20) = 1 := by
    rw [hsize, pageCount, Int.toNat_natCast]
    exact (Nat.div_eq_iff hpos).mpr (by omega)
  have hfits : ∀ k : Nat, k < 1 →
      Fits all.length (k + 1) (positive (Text.decimal all.length) 20) := by
    intro k hk
    obtain rfl : k = 0 := by omega
    rw [hsize, Fits]
    omega
  have hwhole : Paging resource all (paged defaultKey resource all) := paging_paged hlen
  rw [hcount]
  exact hwhole.whole ⟨"", Text.decimal all.length, "", direction⟩ 1 (by omega) hfits
    (by rw [hsize]; omega)

/-- The declared order is that of the list just if the list is in it. -/
theorem declared_iff (key : ρ → κ) (listKey : α → κ)
    (hkey : ∀ a, key (resource a) = listKey a) (hlen : all.length < 2 ^ 63) (direction : String) :
    Declared defaultKey key all.length (paged defaultKey resource all) direction ↔
      InOrder (reported direction) (all.map listKey) := by
  have hkeys : (all.map resource).map key = all.map listKey := by
    rw [List.map_map]
    exact List.map_congr_left (fun a _ => hkey a)
  constructor
  · intro h
    by_cases hempty : all = []
    · subst hempty
      exact ⟨fun _ => .nil, fun _ => .nil⟩
    · obtain ⟨rs, hrs, hrecords⟩ := one_page defaultKey resource hlen hempty direction
      have hne : rs ≠ [] := by
        rintro rfl
        exact hempty (List.map_eq_nil_iff.mp hrecords.symm)
      obtain ⟨r, hr⟩ := List.exists_mem_of_ne_nil rs hne
      obtain ⟨k, hk⟩ := mem_pages hrs hr
      have horder := (h "" List.mem_cons_self _ rs hrs r hr).2
      rwa [(paged_spec hk).2, hrecords, hkeys] at horder
  · intro h sortKey hsort pageSize rs hpages r hr
    obtain ⟨k, hk⟩ := mem_pages hpages hr
    obtain ⟨hdeclared, hdirection⟩ := paged_spec hk
    rw [hdirection, pages_whole hlen hpages, hkeys]
    refine ⟨hdeclared.trans ?_, h⟩
    simp only [List.mem_cons, List.not_mem_nil, or_false] at hsort
    rcases hsort with rfl | rfl
    · rfl
    · exact ite_self _

end Handler

/-- A list that ascends also descends only if it stays where it is. -/
theorem ge_iff_constant {keys : List κ} (h : keys.Pairwise (· ≤ ·)) :
    keys.Pairwise (· ≥ ·) ↔ ∀ a ∈ keys, ∀ b ∈ keys, a = b := by
  constructor
  · intro hge a ha b hb
    have heq : keys.Pairwise (· = ·) := (h.and hge).imp (fun hab => le_antisymm hab.1 hab.2)
    exact heq.forall_of_forall (fun _ _ => rfl) ha hb
  · intro hconst
    exact h.imp_of_mem (fun ha hb _ => (hconst _ ha _ hb).ge)

theorem inOrder_of_ascending {keys : List κ} (h : keys.Pairwise (· ≤ ·)) :
    InOrder direction keys ↔ direction ≠ "descending" ∨ ∀ a ∈ keys, ∀ b ∈ keys, a = b := by
  rw [← ge_iff_constant h, InOrder]
  constructor
  · intro hin
    by_cases hd : direction = "descending"
    · exact .inr (hin.2 hd)
    · exact .inl hd
  · intro hcond
    exact ⟨fun _ => h, fun hd => hcond.resolve_left (not_not.mpr hd)⟩

theorem inOrder_of_descending {keys : List κ} (h : keys.Pairwise (· ≥ ·)) :
    InOrder direction keys ↔ direction ≠ "ascending" ∨ ∀ a ∈ keys, ∀ b ∈ keys, a = b := by
  have hconst : keys.Pairwise (· ≤ ·) ↔ ∀ a ∈ keys, ∀ b ∈ keys, a = b :=
    ge_iff_constant (κ := κᵒᵈ) h
  rw [← hconst, InOrder]
  constructor
  · intro hin
    by_cases hd : direction = "ascending"
    · exact .inr (hin.1 hd)
    · exact .inl hd
  · intro hcond
    exact ⟨fun hd => hcond.resolve_left (not_not.mpr hd), fun _ => h⟩

@[simp] theorem airKey_inj : airKey a = airKey b ↔ a = b := by
  cases a <;> cases b <;> simp [airKey]

/-- A list that is sorted by a key ascends by it. -/
theorem ascending_stableSort {before : α → α → Bool} {key : α → κ}
    (h : ∀ a b, before a b = true ↔ key a < key b) (l : List α) :
    (stableSort before l).Pairwise (fun a b => key a ≤ key b) := by
  have hfalse : ∀ a b, before a b = false ↔ key b ≤ key a := by
    intro a b
    rw [← Bool.not_eq_true, h, not_lt]
  have hweak : WeakOrder before := by
    constructor
    · intro a b hab
      rw [h] at hab
      exact (hfalse b a).mpr hab.le
    · intro a b c hab hbc
      rw [hfalse] at hab hbc ⊢
      exact hab.trans hbc
  apply (sorted_stableSort hweak l).imp
  intro a b hab
  exact (hfalse b a).mp hab

theorem descending_historyList (store : History.Store) :
    ((History.listAll store).map History.Entry.date).Pairwise (· ≥ ·) := by
  have hnewer : ∀ a b, History.newer a b = true ↔
      OrderDual.toDual a.date < OrderDual.toDual b.date := by
    intro a b
    rw [OrderDual.toDual_lt_toDual]
    exact decide_eq_true_iff
  rw [List.pairwise_map]
  exact ascending_stableSort hnewer store.rows

theorem declared_wanted_iff (lib : Library) (p : Episode → Bool)
    (hlib : lib.episodes.rows.length < 2 ^ 63) (direction : String) :
    Declared "airDateUtc" (fun r => airKey r.airDateUtc) ((listAll lib).filter p).length
        (paged "airDateUtc" toEpisodeResource ((listAll lib).filter p)) direction ↔
      reported direction ≠ "descending" ∨ ∀ a ∈ (listAll lib).filter p,
        ∀ b ∈ (listAll lib).filter p, a.airDateUtc = b.airDateUtc := by
  have hbefore : ∀ a b, airsBefore a b = true ↔ airKey a.airDateUtc < airKey b.airDateUtc := by
    intro a b
    unfold airsBefore
    cases a.airDateUtc <;> cases b.airDateUtc <;> simp [airKey]
  have hsorted : (((listAll lib).filter p).map (fun e => airKey e.airDateUtc)).Pairwise (· ≤ ·) :=
    List.pairwise_map.mpr ((ascending_stableSort hbefore lib.episodes.rows).filter p)
  rw [declared_iff (fun r : EpisodeResource => airKey r.airDateUtc) (fun e => airKey e.airDateUtc)
      (fun _ => rfl) (length_filter_listAll lib p hlib),
    inOrder_of_ascending hsorted]
  simp only [List.forall_mem_map, airKey_inj]

theorem declared_history_iff (store : History.Store) (hstore : store.rows.length < 2 ^ 63)
    (direction : String) :
    Declared "date" HistoryResource.date (History.listAll store).length (historyList store)
        direction ↔
      reported direction ≠ "ascending" ∨ ∀ a ∈ History.listAll store,
        ∀ b ∈ History.listAll store, a.date = b.date := by
  have hlen : (History.listAll store).length < 2 ^ 63 := by
    rw [History.listAll, (perm_stableSort _ _).length_eq]
    exact hstore
  rw [historyList, declared_iff HistoryResource.date History.Entry.date (fun _ => rfl) hlen,
    inOrder_of_descending (descending_historyList store)]
  simp only [List.forall_mem_map]

/-- A wanted list is in its declared order just if that is ascending or all of its dates are the
same, and the history just if it is descending or all of its dates are the same. -/
theorem declared_order_iff (lib : Library) (store : History.Store) (direction : String)
    (hlib : lib.episodes.rows.length < 2 ^ 63) (hstore : store.rows.length < 2 ^ 63) :
    (Declared "airDateUtc" (fun r => airKey r.airDateUtc) (missingEpisodes lib).length
        (missing lib) direction ↔
      reported direction ≠ "descending" ∨ ∀ a ∈ missingEpisodes lib, ∀ b ∈ missingEpisodes lib,
        a.airDateUtc = b.airDateUtc) ∧
    (Declared "airDateUtc" (fun r => airKey r.airDateUtc) (cutoffEpisodes lib).length
        (cutoffUnmet lib) direction ↔
      reported direction ≠ "descending" ∨ ∀ a ∈ cutoffEpisodes lib, ∀ b ∈ cutoffEpisodes lib,
        a.airDateUtc = b.airDateUtc) ∧
    (Declared "date" HistoryResource.date (History.listAll store).length
        (historyList store) direction ↔
      reported direction ≠ "ascending" ∨ ∀ a ∈ History.listAll store,
        ∀ b ∈ History.listAll store, a.date = b.date) := by
  exact ⟨declared_wanted_iff lib _ hlib direction, declared_wanted_iff lib _ hlib direction,
    declared_history_iff store hstore direction⟩

theorem declared_order_twoMissing :
    twoMissing.episodes.rows.length < 2 ^ 63 ∧ twoGrabs.rows.length < 2 ^ 63 ∧
      Declared "airDateUtc" (fun r => airKey r.airDateUtc) (missingEpisodes twoMissing).length
        (missing twoMissing) "ascending" ∧
      Declared "date" HistoryResource.date (History.listAll twoGrabs).length
        (historyList twoGrabs) "descending" := by
  have hmissing := declared_order_iff twoMissing twoGrabs "ascending" (by decide) (by decide)
  have hgrabs := declared_order_iff twoMissing twoGrabs "descending" (by decide) (by decide)
  exact ⟨by decide, by decide, hmissing.1.mpr (.inl (by decide)), hgrabs.2.2.mpr (.inl (by decide))⟩

/-- Without a direction the response says that it descends, and it ascends. -/
theorem reported_descending :
    ¬ Declared "airDateUtc" (fun r => airKey r.airDateUtc) (missingEpisodes twoMissing).length
      (missing twoMissing) "" := by
  intro h
  have horder := (h "" List.mem_cons_self "" _ rfl _ List.mem_cons_self).2.2 rfl
  exact absurd horder (by decide)

end Sonarr.Api.V3
