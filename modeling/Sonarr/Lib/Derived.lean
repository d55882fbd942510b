import Mathlib.Logic.Function.Basic

/-! A value derived from a source that several processes change. Every process reads
the source again after its change and stores what it has read, so that the stored value
follows the source as long as no process stores over a later reading. -/
namespace Sonarr.Lib.Derived

/-- How far a process is: before its change, about to read, with a reading to store
(and the number of changes it has seen), or done. -/
inductive Proc (α : Type)
  | waiting
  | pending
  | holding (seen : Nat) (value : α)
  | finished

structure Cache (α : Type) where
  /-- What a reading of the source gives now. -/
  current : α
  /-- How often the source was changed. -/
  version : Nat
  stored : Option (Nat × α)
  procs : Nat → Proc α

namespace Cache
variable {α : Type}

def setProc (c : Cache α) (i : Nat) (p : Proc α) : Cache α :=
  { c with procs := Function.update c.procs i p }

def change (c : Cache α) (i : Nat) (value : α) : Cache α :=
  { c with current := value, version := c.version + 1 }.setProc i .pending

/-- A change that the source does not see. -/
def announce (c : Cache α) (i : Nat) : Cache α := c.setProc i .pending

def read (c : Cache α) (i : Nat) : Cache α := c.setProc i (.holding c.version c.current)

def store (c : Cache α) (i seen : Nat) (value : α) : Cache α :=
  { c with stored := some (seen, value) }.setProc i .finished

/-- A reading is not from the future, and one that has seen all changes is right. -/
def Reading (c : Cache α) (seen : Nat) (value : α) : Prop :=
  seen ≤ c.version ∧ (seen = c.version → value = c.current)

/-- All readings are right as of when they were made, and the last change was stored, is
held by a process or will be read by one, once anything has happened. -/
structure Sound (c : Cache α) : Prop where
  held : ∀ i seen value, c.procs i = .holding seen value → c.Reading seen value
  stored : ∀ seen value, c.stored = some (seen, value) → c.Reading seen value
  covered : (∃ value, c.stored = some (c.version, value)) ∨ (∃ i, c.procs i = .pending) ∨
    (∃ i value, c.procs i = .holding c.version value) ∨ ∀ i, c.procs i = .waiting

variable {c : Cache α}

theorem setProc_self (c : Cache α) (i : Nat) (p : Proc α) : (c.setProc i p).procs i = p := by
  simp [setProc]

theorem setProc_of_ne (hne : j ≠ i) (p : Proc α) : (c.setProc i p).procs j = c.procs j := by
  simp [setProc, Function.update_of_ne hne]

theorem setProc_eq_self (h : c.procs i = p) : c.setProc i p = c := by
  subst h
  simp [setProc]

theorem Sound.start (current : α) :
    Sound ⟨current, 0, none, fun _ => .waiting⟩ where
  held := fun _ _ _ h => by cases h
  stored := fun _ _ h => by cases h
  covered := .inr (.inr (.inr fun _ => rfl))

theorem Sound.change (h : c.Sound) (i : Nat) (value : α) : (c.change i value).Sound where
  held := by
    intro j seen v hj
    by_cases hji : j = i
    · subst hji
      rw [Cache.change, setProc_self] at hj
      cases hj
    · rw [Cache.change, setProc_of_ne hji] at hj
      have hle := (h.held j seen v hj).1
      exact ⟨Nat.le_succ_of_le hle, fun he => absurd he (Nat.ne_of_lt (Nat.lt_succ_of_le hle))⟩
  stored := by
    intro seen v hs
    have hle := (h.stored seen v hs).1
    exact ⟨Nat.le_succ_of_le hle, fun he => absurd he (Nat.ne_of_lt (Nat.lt_succ_of_le hle))⟩
  covered := .inr (.inl ⟨i, setProc_self _ i _⟩)

theorem Sound.announce (h : c.Sound) (i : Nat) : (c.announce i).Sound where
  held := by
    intro j seen v hj
    by_cases hji : j = i
    · subst hji
      rw [Cache.announce, setProc_self] at hj
      cases hj
    · rw [Cache.announce, setProc_of_ne hji] at hj
      exact h.held j seen v hj
  stored := h.stored
  covered := .inr (.inl ⟨i, setProc_self _ i _⟩)

theorem Sound.read (h : c.Sound) (i : Nat) : (c.read i).Sound where
  held := by
    intro j seen v hj
    by_cases hji : j = i
    · subst hji
      rw [Cache.read, setProc_self] at hj
      cases hj
      exact ⟨Nat.le_refl _, fun _ => rfl⟩
    · rw [Cache.read, setProc_of_ne hji] at hj
      exact h.held j seen v hj
  stored := h.stored
  covered := .inr (.inr (.inl ⟨i, c.current, setProc_self _ i _⟩))

/-- A reading may be stored over one that has seen no more changes. -/
theorem Sound.store (h : c.Sound) (hi : c.procs i = .holding seen value)
    (hnew : ∀ n v, c.stored = some (n, v) → n ≤ seen) : (c.store i seen value).Sound where
  held := by
    intro j n v hj
    by_cases hji : j = i
    · subst hji
      rw [Cache.store, setProc_self] at hj
      cases hj
    · rw [Cache.store, setProc_of_ne hji] at hj
      exact h.held j n v hj
  stored := by
    intro n v hs
    cases hs
    exact h.held i seen value hi
  covered := by
    have hseen := (h.held i seen value hi).1
    rcases h.covered with ⟨v, hv⟩ | ⟨j, hj⟩ | ⟨j, v, hj⟩ | hall
    · have heq : seen = c.version := Nat.le_antisymm hseen (hnew _ v hv)
      exact .inl ⟨value, by rw [heq]; rfl⟩
    · have hji : j ≠ i := by
        rintro rfl
        rw [hi] at hj
        cases hj
      exact .inr (.inl ⟨j, (setProc_of_ne hji _).trans hj⟩)
    · by_cases hji : j = i
      · subst hji
        rw [hi] at hj
        cases hj
        exact .inl ⟨value, rfl⟩
      · exact .inr (.inr (.inl ⟨j, v, (setProc_of_ne hji _).trans hj⟩))
    · rw [hall i] at hi
      cases hi

/-- Once all processes that have begun are done, the stored value is the current one. -/
theorem Sound.settled (h : c.Sound) (hrest : ∀ i, c.procs i = .waiting ∨ c.procs i = .finished)
    (hsome : c.procs j = .finished) : ∃ seen, c.stored = some (seen, c.current) := by
  rcases h.covered with ⟨v, hv⟩ | ⟨i, hi⟩ | ⟨i, v, hi⟩ | hall
  · refine ⟨c.version, ?_⟩
    rw [hv, (h.stored _ v hv).2 rfl]
  · rcases hrest i with hr | hr <;> rw [hi] at hr <;> cases hr
  · rcases hrest i with hr | hr <;> rw [hi] at hr <;> cases hr
  · rw [hall j] at hsome
    cases hsome

end Cache
end Sonarr.Lib.Derived
