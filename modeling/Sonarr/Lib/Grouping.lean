import Mathlib.Data.List.Nodup

namespace Sonarr.Lib

variable {κ α : Type} [DecidableEq κ]

/-- A map from keys to lists, as the entries a hash map would hold: each key once
and no list empty. -/
structure Groups (κ α : Type) where
  entries : List (κ × List α)
  keys : (entries.map Prod.fst).Nodup
  full : ∀ e ∈ entries, e.2 ≠ []

/-- `groups[k] = append(groups[k], a)` on the entries. -/
def appendAt (k : κ) (a : α) : List (κ × List α) → List (κ × List α)
  | [] => [(k, [a])]
  | e :: es => if e.1 = k then (k, e.2 ++ [a]) :: es else e :: appendAt k a es

theorem keys_appendAt (k : κ) (a : α) (es : List (κ × List α)) :
    (appendAt k a es).map Prod.fst =
      if k ∈ es.map Prod.fst then es.map Prod.fst else es.map Prod.fst ++ [k] := by
  induction es with
  | nil => simp [appendAt]
  | cons e es ih =>
    simp only [appendAt, List.map_cons, List.mem_cons]
    by_cases he : e.1 = k
    · simp [he]
    · have hk : ¬ k = e.1 := fun h => he h.symm
      simp only [he, if_false, List.map_cons, ih, hk, false_or]
      split <;> simp

theorem full_appendAt {k : κ} {a : α} {es : List (κ × List α)} (h : ∀ e ∈ es, e.2 ≠ []) :
    ∀ e ∈ appendAt k a es, e.2 ≠ [] := by
  induction es with
  | nil => simp [appendAt]
  | cons d es ih =>
    intro e he
    simp only [appendAt] at he
    split at he
    · rcases List.mem_cons.mp he with rfl | he
      · simp
      · exact h e (List.mem_cons_of_mem _ he)
    · rcases List.mem_cons.mp he with rfl | he
      · exact h e List.mem_cons_self
      · exact ih (fun e he => h e (List.mem_cons_of_mem _ he)) e he

namespace Groups

def empty : Groups κ α := ⟨[], by simp, by simp⟩

def add (g : Groups κ α) (k : κ) (a : α) : Groups κ α where
  entries := appendAt k a g.entries
  keys := by
    rw [keys_appendAt]
    split
    · exact g.keys
    · rename_i hk
      refine List.nodup_append.mpr ⟨g.keys, by simp, ?_⟩
      rintro j hj _ hk' rfl
      exact hk (List.mem_singleton.mp hk' ▸ hj)
  full := full_appendAt g.full

/-- What a map holds under a key; nothing for a key it does not have. -/
def values (g : Groups κ α) (k : κ) : List α := (g.entries.lookup k).getD []

def collect (xs : List (κ × α)) : Groups κ α := xs.foldl (fun g x => g.add x.1 x.2) empty

/-- The values that belong under a key. -/
def under (k : κ) (xs : List (κ × α)) : List α := (xs.filter (fun x => x.1 = k)).map Prod.snd

theorem lookup_cons_ne {k j : κ} {l : List α} {es : List (κ × List α)} (h : k ≠ j) :
    ((j, l) :: es).lookup k = es.lookup k := by
  have hb : (k == j) = false := by simpa using h
  rw [List.lookup_cons, hb]

theorem lookup_appendAt (k k' : κ) (a : α) (es : List (κ × List α)) :
    ((appendAt k a es).lookup k').getD [] =
      (es.lookup k').getD [] ++ if k = k' then [a] else [] := by
  induction es with
  | nil =>
    by_cases hk : k = k'
    · simp [appendAt, hk]
    · simp [appendAt, lookup_cons_ne (Ne.symm hk), hk]
  | cons e es ih =>
    obtain ⟨j, l⟩ := e
    simp only [appendAt]
    by_cases hj : j = k
    · subst hj
      by_cases hk : k' = j
      · simp [hk]
      · simp [lookup_cons_ne hk, Ne.symm hk]
    · simp only [hj, if_false]
      by_cases hk : k' = j
      · subst hk
        simp [Ne.symm hj]
      · rw [lookup_cons_ne hk, lookup_cons_ne hk, ih]

theorem values_add (g : Groups κ α) (k k' : κ) (a : α) :
    (g.add k a).values k' = g.values k' ++ if k = k' then [a] else [] :=
  lookup_appendAt k k' a g.entries

/-- After a run of appends a key holds the values that belong under it, in order. -/
theorem values_collect (xs : List (κ × α)) (k : κ) : (collect xs).values k = under k xs := by
  suffices h : ∀ g : Groups κ α,
      (xs.foldl (fun g x => g.add x.1 x.2) g).values k = g.values k ++ under k xs from h empty
  induction xs with
  | nil => simp [under]
  | cons x xs ih =>
    intro g
    rw [List.foldl_cons, ih, values_add]
    by_cases hk : x.1 = k <;> simp [under, hk]

theorem lookup_of_mem {es : List (κ × List α)} (hn : (es.map Prod.fst).Nodup)
    (h : (k, l) ∈ es) : es.lookup k = some l := by
  induction es with
  | nil => cases h
  | cons e es ih =>
    obtain ⟨j, m⟩ := e
    obtain ⟨hj, hn⟩ := List.nodup_cons.mp hn
    rcases List.mem_cons.mp h with he | ht
    · cases he
      simp
    · have hk : k ≠ j := by
        rintro rfl
        exact hj (List.mem_map.mpr ⟨_, ht, rfl⟩)
      rw [lookup_cons_ne hk, ih hn ht]

theorem mem_of_lookup {es : List (κ × List α)} (h : es.lookup k = some l) : (k, l) ∈ es := by
  induction es with
  | nil => cases h
  | cons e es ih =>
    obtain ⟨j, m⟩ := e
    by_cases hk : k = j
    · subst hk
      simp only [List.lookup_cons_self, Option.some.injEq] at h
      simp [h]
    · rw [lookup_cons_ne hk] at h
      exact List.mem_cons_of_mem _ (ih h)

/-- The entries are exactly the non-empty lists. -/
theorem mem_collect {xs : List (κ × α)} :
    (k, l) ∈ (collect xs).entries ↔ l = under k xs ∧ l ≠ [] := by
  have hat := values_collect xs k
  unfold values at hat
  constructor
  · intro h
    rw [lookup_of_mem (collect xs).keys h] at hat
    exact ⟨hat, (collect xs).full _ h⟩
  · rintro ⟨rfl, hne⟩
    cases hl : (collect xs).entries.lookup k with
    | none => simp [hl, ← hat] at hne
    | some m =>
      rw [hl] at hat
      rw [← hat]
      exact mem_of_lookup hl

omit [DecidableEq κ] in
/-- Entries that are kept and changed keep their keys. -/
theorem keys_filterMap_sublist {β : Type} (f : κ → List α → Option β) (es : List (κ × List α)) :
    ((es.filterMap (fun e => (f e.1 e.2).map (fun b => (e.1, b)))).map Prod.fst).Sublist
      (es.map Prod.fst) := by
  induction es with
  | nil => exact .slnil
  | cons e es ih =>
    cases hf : f e.1 e.2 with
    | none =>
      rw [List.filterMap_cons_none (by simp [hf])]
      exact ih.cons e.1
    | some b =>
      rw [List.filterMap_cons_some (by simp only [hf, Option.map_some]; rfl)]
      exact ih.cons_cons e.1

end Groups
end Sonarr.Lib
