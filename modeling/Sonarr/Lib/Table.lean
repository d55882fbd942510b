import Mathlib.Data.List.Nodup

namespace Sonarr.Lib

/-- Rows that carry their own primary key. -/
class Keyed (α : Type) where
  key : α → Nat

open Keyed (key)

/-- A table with an autoincrement primary key: rows in key order of insertion,
no key twice, and the next key above every key ever handed out. -/
structure Table (α : Type) [Keyed α] where
  rows : List α
  next : Nat
  unique : (rows.map key).Nodup
  below : ∀ r ∈ rows, key r < next

namespace Table
variable {α : Type} [Keyed α]

def empty : Table α := ⟨[], 1, by simp, by simp⟩

/-- `SELECT * WHERE id = k`. -/
def get (t : Table α) (k : Nat) : Option α := t.rows.find? (fun r => key r == k)

/-- `INSERT`, with the key the sequence hands out. -/
def insert (t : Table α) (make : Nat → α) (hk : ∀ n, key (make n) = n) : Table α where
  rows := t.rows ++ [make t.next]
  next := t.next + 1
  unique := by
    rw [List.map_append, List.nodup_append]
    refine ⟨t.unique, by simp, ?_⟩
    intro a ha b hb he
    obtain ⟨r, hr, rfl⟩ := List.mem_map.mp ha
    have hb' : b = t.next := by simpa [hk] using hb
    have := t.below r hr
    omega
  below := by
    intro r hr
    rcases List.mem_append.mp hr with hr | hr
    · exact Nat.lt_succ_of_lt (t.below r hr)
    · rw [List.mem_singleton.mp hr, hk]
      exact Nat.lt_succ_self _

/-- `UPDATE ... SET f WHERE p`, for an assignment that leaves the key alone. -/
def update (t : Table α) (p : α → Bool) (f : α → α) (hf : ∀ r, key (f r) = key r) : Table α where
  rows := t.rows.map (fun r => if p r then f r else r)
  next := t.next
  unique := by
    have he : (fun r => key (if p r then f r else r)) = key := by
      funext r
      split <;> simp [hf]
    rw [List.map_map, Function.comp_def, he]
    exact t.unique
  below := by
    intro r hr
    obtain ⟨q, hq, rfl⟩ := List.mem_map.mp hr
    have := t.below q hq
    split <;> simpa [hf] using this

/-- `DELETE WHERE p`. -/
def delete (t : Table α) (p : α → Bool) : Table α where
  rows := t.rows.filter (fun r => !p r)
  next := t.next
  unique := t.unique.sublist (List.filter_sublist.map key)
  below := fun r hr => t.below r (List.mem_filter.mp hr).1

theorem eq_of_key {t : Table α} (hr : r ∈ t.rows) (hq : q ∈ t.rows) (hk : key r = key q) :
    r = q :=
  List.inj_on_of_nodup_map t.unique hr hq hk

theorem get_eq_some {t : Table α} : t.get k = some r ↔ r ∈ t.rows ∧ key r = k := by
  constructor
  · intro h
    exact ⟨List.mem_of_find?_eq_some h, by simpa using List.find?_some h⟩
  · rintro ⟨hr, rfl⟩
    cases hg : t.get (key r) with
    | none => simpa using List.find?_eq_none.mp hg r hr
    | some q =>
      have hq : key q = key r := by simpa using List.find?_some hg
      rw [eq_of_key (List.mem_of_find?_eq_some hg) hr hq]

theorem mem_insert {t : Table α} {make : Nat → α} {hk} :
    r ∈ (t.insert make hk).rows ↔ r ∈ t.rows ∨ r = make t.next := by
  simp [insert]

/-- Rows with a value kept beside each under its key: a new row adds its own. -/
theorem beside_insert {t : Table α} {make : Nat → α} {hk} (f : Nat → β) (v : β) :
    (t.insert make hk).rows.map (fun r => (r, Function.update f t.next v (key r))) =
      t.rows.map (fun r => (r, f (key r))) ++ [(make t.next, v)] := by
  have hold : t.rows.map (fun r => (r, Function.update f t.next v (key r))) =
      t.rows.map (fun r => (r, f (key r))) := by
    apply List.map_congr_left
    intro r hr
    have hne : key r ≠ t.next := Nat.ne_of_lt (t.below r hr)
    rw [Function.update_of_ne hne]
  simp [insert, hold, hk]

theorem mem_update {t : Table α} {p : α → Bool} {f : α → α} {hf} :
    r ∈ (t.update p f hf).rows ↔ ∃ q ∈ t.rows, r = if p q then f q else q := by
  simp only [update, List.mem_map]
  exact exists_congr fun q => and_congr_right fun _ => eq_comm

theorem keys_update {t : Table α} {p : α → Bool} {f : α → α} {hf} :
    (t.update p f hf).rows.map key = t.rows.map key := by
  simp only [update, List.map_map]
  apply List.map_congr_left
  intro r _
  simp only [Function.comp]
  split <;> simp [hf]

theorem get_update {t : Table α} {p : α → Bool} {f : α → α} {hf} (k : Nat) :
    (t.update p f hf).get k = (t.get k).map (fun r => if p r then f r else r) := by
  have hkey : ∀ r, key (if p r then f r else r) = key r := by
    intro r
    split <;> simp [hf]
  simp only [get, update, List.find?_map, Function.comp_def, hkey]

theorem get_insert_next {t : Table α} {make : Nat → α} {hk} :
    (t.insert make hk).get t.next = some (make t.next) :=
  get_eq_some.mpr ⟨mem_insert.mpr (.inr rfl), hk t.next⟩

theorem get_insert {t : Table α} {make : Nat → α} {hk} (k : Nat) :
    (t.insert make hk).get k = if k = t.next then some (make k) else t.get k := by
  split
  · rename_i he
    subst he
    exact get_insert_next
  · rename_i hne
    apply Option.ext
    intro r
    simp only [get_eq_some, mem_insert]
    constructor
    · rintro ⟨hr | hr, hkey⟩
      · exact ⟨hr, hkey⟩
      · exact absurd (by rw [← hkey, hr, hk]) hne
    · rintro ⟨hr, hkey⟩
      exact ⟨.inl hr, hkey⟩

theorem mem_delete {t : Table α} {p : α → Bool} :
    r ∈ (t.delete p).rows ↔ r ∈ t.rows ∧ p r = false := by
  simp [delete]

end Table

section Upsert
variable {α κ : Type} [DecidableEq κ] {key : α → κ}

/-- `INSERT ... ON CONFLICT (key) DO UPDATE`, for a conflict that takes over the
whole row. -/
def upsert (key : α → κ) (x : α) (rows : List α) : List α :=
  if rows.any (fun r => key r = key x) then rows.map (fun r => if key r = key x then x else r)
  else rows ++ [x]

theorem upsert_of_absent (h : ∀ r ∈ rows, key r ≠ key x) : upsert key x rows = rows ++ [x] := by
  unfold upsert
  rw [if_neg]
  simpa using h

theorem mem_upsert : z ∈ upsert key x rows ↔ z = x ∨ (z ∈ rows ∧ key z ≠ key x) := by
  unfold upsert
  split
  · rename_i hany
    obtain ⟨q, hq, hk⟩ := List.any_eq_true.mp hany
    simp only [decide_eq_true_eq] at hk
    rw [List.mem_map]
    constructor
    · rintro ⟨r, hr, rfl⟩
      split
      · exact .inl rfl
      · rename_i hne
        exact .inr ⟨hr, hne⟩
    · rintro (rfl | ⟨hz, hne⟩)
      · exact ⟨q, hq, by simp [hk]⟩
      · exact ⟨z, hz, by simp [hne]⟩
  · rename_i hany
    have hnone : ∀ r ∈ rows, key r ≠ key x := by simpa using hany
    rw [List.mem_append, List.mem_singleton]
    constructor
    · rintro (hz | rfl)
      · exact .inr ⟨hz, hnone z hz⟩
      · exact .inl rfl
    · rintro (rfl | ⟨hz, _⟩)
      · exact .inr rfl
      · exact .inl hz

theorem nodup_upsert (h : (rows.map key).Nodup) : ((upsert key x rows).map key).Nodup := by
  unfold upsert
  split
  · have he : (key ∘ fun r => if key r = key x then x else r) = key := by
      funext r
      simp only [Function.comp]
      split
      · rename_i hk
        exact hk.symm
      · rfl
    rw [List.map_map, he]
    exact h
  · rename_i hany
    have hnone : ∀ r ∈ rows, key r ≠ key x := by simpa using hany
    rw [List.map_append, List.nodup_append]
    refine ⟨h, by simp, ?_⟩
    intro a ha b hb
    obtain ⟨r, hr, rfl⟩ := List.mem_map.mp ha
    rw [List.mem_singleton.mp hb]
    exact hnone r hr

end Upsert
end Sonarr.Lib
