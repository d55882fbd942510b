import Mathlib.Data.List.Induction
import Mathlib.Data.List.Infix
import Mathlib.Logic.Function.Basic

/-! A file system without links: the entries of directories, what files hold, and when files and
directories were last changed. A directory changes when an entry is added to it or taken out of
it, not when something below its entries does. -/
namespace Sonarr.Lib

inductive Tree.Node (β : Type)
  | dir (mtime : Nat)
  | file (content : β) (mtime : Nat)
  deriving DecidableEq, Repr

/-- What each path leads to. The paths in use are listed, and all that exists is in a directory. -/
structure Tree (κ β : Type) where
  node : List κ → Option (Tree.Node β)
  paths : List (List κ)
  listed : ∀ p, node p ≠ none → p ∈ paths
  closed : ∀ p x, node (p ++ [x]) ≠ none → ∃ m, node p = some (.dir m)

namespace Tree

def Node.mtime : Node β → Nat
  | .dir m => m
  | .file _ m => m

def Node.touched (now : Nat) : Node β → Node β
  | .dir _ => .dir now
  | .file c _ => .file c now

variable {κ β : Type} {t t' t'' : Tree κ β} {p q old new : List κ} {now : Nat}

def isDir (t : Tree κ β) (p : List κ) : Bool :=
  match t.node p with
  | some (.dir _) => true
  | _ => false

theorem isDir_iff : t.isDir p = true ↔ ∃ m, t.node p = some (.dir m) := by
  unfold isDir
  split
  · rename_i m hm
    simp [hm]
  · rename_i hm
    simp only [Bool.false_eq_true, false_iff]
    rintro ⟨m, h⟩
    exact hm m h

/-- Whatever has something below it is a directory. -/
theorem isDir_of_below (h : t.node (p ++ rest) ≠ none) (hrest : rest ≠ []) : t.isDir p = true := by
  induction rest using List.reverseRecOn with
  | nil => exact absurd rfl hrest
  | append_singleton rest x ih =>
    rw [← List.append_assoc] at h
    obtain ⟨m, hm⟩ := t.closed _ _ h
    by_cases hne : rest = []
    · subst hne
      rw [List.append_nil] at hm
      exact isDir_iff.mpr ⟨m, hm⟩
    · exact ih (by simp [hm]) hne

theorem node_below_none (h : t.node p = none) (hpq : p <+: q) : t.node q = none := by
  obtain ⟨rest, rfl⟩ := hpq
  by_contra hq
  by_cases hrest : rest = []
  · subst hrest
    rw [List.append_nil] at hq
    exact hq h
  · obtain ⟨m, hm⟩ := isDir_iff.mp (isDir_of_below hq hrest)
    rw [h] at hm
    cases hm

theorem eq_of_below_file (h : t.node p = some (.file c m)) (hq : t.node (p ++ rest) ≠ none) :
    rest = [] := by
  by_contra hrest
  obtain ⟨m', hm⟩ := isDir_iff.mp (isDir_of_below hq hrest)
  rw [h] at hm
  cases hm

/-- At `q` there is what was there before, but perhaps changed again at `now`. -/
def Keeps (now : Nat) (t t' : Tree κ β) (q : List κ) : Prop :=
  t'.node q = t.node q ∨ t'.node q = (t.node q).map (Node.touched now)

theorem touched_touched (n : Node β) : (n.touched now).touched now = n.touched now := by
  cases n <;> rfl

theorem Keeps.refl : Keeps now t t q := .inl rfl

theorem Keeps.trans (h : Keeps now t t' q) (h' : Keeps now t' t'' q) : Keeps now t t'' q := by
  have htwice : ((t.node q).map (Node.touched now)).map (Node.touched now) =
      (t.node q).map (Node.touched now) := by
    rw [Option.map_map]
    exact congrArg (fun f => Option.map f (t.node q)) (funext touched_touched)
  rcases h with h | h <;> rcases h' with h' | h' <;> rw [h] at h'
  · exact .inl h'
  · exact .inr h'
  · exact .inr h'
  · exact .inr (h'.trans htwice)

theorem Keeps.absent (h : Keeps now t t' q) (hq : t.node q = none) : t'.node q = none := by
  rcases h with h | h <;> simp [h, hq]

theorem Keeps.present (h : Keeps now t t' q) (hq : t.node q ≠ none) : t'.node q ≠ none := by
  rcases h with h | h <;> simpa [h] using hq

theorem Keeps.file (h : Keeps now t t' q) (hq : t.node q = some (.file c m)) :
    ∃ m', t'.node q = some (.file c m') := by
  rcases h with h | h
  · exact ⟨m, h.trans hq⟩
  · exact ⟨now, by rw [h, hq]; rfl⟩

theorem Keeps.file_before (h : Keeps now t t' q) (hq : t'.node q = some (.file c m)) :
    ∃ m', t.node q = some (.file c m') := by
  rcases h with h | h <;> rw [h] at hq
  · exact ⟨m, hq⟩
  · obtain ⟨n, hn, ht⟩ := Option.map_eq_some_iff.mp hq
    cases n with
    | dir => cases ht
    | file c' m' => exact ⟨m', by cases ht; exact hn⟩

theorem Keeps.isDir (h : Keeps now t t' q) (hq : t.isDir q = true) : t'.isDir q = true := by
  obtain ⟨m, hm⟩ := isDir_iff.mp hq
  rcases h with h | h
  · exact isDir_iff.mpr ⟨m, h.trans hm⟩
  · exact isDir_iff.mpr ⟨now, by rw [h, hm]; rfl⟩

theorem Keeps.dir_now (h : Keeps now t t' q) (hq : t.node q = some (.dir now)) :
    t'.node q = some (.dir now) := by
  rcases h with h | h
  · exact h.trans hq
  · rw [h, hq]
    rfl

/-- A time that has come by `now` is still not after the entry's last change. -/
theorem Keeps.mtime_le (h : Keeps now t t' q) (hq : t.node q = some n) (hn : since ≤ n.mtime)
    (hnow : since ≤ now) : ∃ n', t'.node q = some n' ∧ since ≤ n'.mtime := by
  rcases h with h | h
  · exact ⟨n, h.trans hq, hn⟩
  · exact ⟨n.touched now, by rw [h, hq]; rfl, by cases n <;> exact hnow⟩

/-- There can be a file or a new directory at `p`. -/
def Room (t : Tree κ β) (p : List κ) : Prop :=
  p ≠ [] ∧ t.isDir p.dropLast = true ∧ t.isDir p = false

instance : Decidable (t.Room p) := inferInstanceAs (Decidable (_ ∧ _ ∧ _))

/-- Where there is room, only the entry itself can be missing. -/
theorem Room.eq_of_missing (h : t.Room p) (hq : q ++ [y] <+: p) (hnone : t.node (q ++ [y]) = none) :
    p = q ++ [y] := by
  obtain ⟨hne, hdir, -⟩ := h
  obtain ⟨m, hm⟩ := isDir_iff.mp hdir
  rw [← List.dropLast_append_getLast hne] at hq
  rcases List.prefix_concat_iff.mp hq with hq | hq
  · exact (List.dropLast_append_getLast hne).symm.trans hq.symm
  · rw [node_below_none hnone hq] at hm
    cases hm

/-- All that was at `src` and below is at `dest` and below, and the directories that got a new
entry by this have changed. -/
structure Moved (now : Nat) (t t' : Tree κ β) (src dest : List κ) : Prop where
  apart : ¬ src <+: dest
  others : ∀ q, t.node q ≠ none → ¬ src <+: q → ¬ dest <+: q → Keeps now t t' q
  files : ∀ rest c m, t.node (src ++ rest) = some (.file c m) →
    ∃ m', t'.node (dest ++ rest) = some (.file c m')
  fresh : ∀ q y, q ++ [y] <+: dest → t.node (q ++ [y]) = none → t'.node q = some (.dir now)

theorem Moved.keeps (h : Moved now t t' src dest) (hk : ∀ q, Keeps now t' t'' q) :
    Moved now t t'' src dest where
  apart := h.apart
  others q hq hs hd := (h.others q hq hs hd).trans (hk q)
  files rest c m hm := by
    obtain ⟨m', hm'⟩ := h.files rest c m hm
    exact (hk _).file hm'
  fresh q y hq hnone := (hk q).dir_now (h.fresh q y hq hnone)

section Changes

variable [DecidableEq κ]

/-- `os.Chtimes`. -/
def touch (t : Tree κ β) (p : List κ) (now : Nat) : Tree κ β where
  node := Function.update t.node p ((t.node p).map (Node.touched now))
  paths := t.paths
  listed q hq := by
    by_cases hqp : q = p
    · subst hqp
      rw [Function.update_self] at hq
      exact t.listed q (fun hn => hq (by rw [hn]; rfl))
    · rw [Function.update_of_ne hqp] at hq
      exact t.listed q hq
  closed q x hq := by
    have hold : t.node (q ++ [x]) ≠ none := by
      by_cases hqp : q ++ [x] = p
      · subst hqp
        rw [Function.update_self] at hq
        exact fun hn => hq (by rw [hn]; rfl)
      · rwa [Function.update_of_ne hqp] at hq
    obtain ⟨m, hm⟩ := t.closed q x hold
    by_cases hqp : q = p
    · subst hqp
      exact ⟨now, by rw [Function.update_self, hm]; rfl⟩
    · exact ⟨m, by rw [Function.update_of_ne hqp, hm]⟩

theorem touch_keeps (t : Tree κ β) (p q : List κ) (now : Nat) : Keeps now t (t.touch p now) q := by
  by_cases hqp : q = p
  · subst hqp
    exact .inr (Function.update_self ..)
  · exact .inl (Function.update_of_ne hqp ..)

theorem touch_node (t : Tree κ β) (p : List κ) (now : Nat) :
    (t.touch p now).node p = (t.node p).map (Node.touched now) :=
  Function.update_self ..

/-- `n` at `p`, where there is room for it. -/
def put (t : Tree κ β) (p : List κ) (n : Node β) : Tree κ β :=
  if h : t.Room p then
    { node := Function.update t.node p (some n)
      paths := p :: t.paths
      listed := by
        intro q hq
        by_cases hqp : q = p
        · rw [hqp]
          exact List.mem_cons_self
        · rw [Function.update_of_ne hqp] at hq
          exact List.mem_cons_of_mem _ (t.listed q hq)
      closed := by
        intro q x hq
        by_cases hqx : q ++ [x] = p
        · subst hqx
          obtain ⟨m, hm⟩ := isDir_iff.mp h.2.1
          rw [List.dropLast_concat] at hm
          exact ⟨m, by rw [Function.update_of_ne (by simp), hm]⟩
        · rw [Function.update_of_ne hqx] at hq
          obtain ⟨m, hm⟩ := t.closed q x hq
          have hqp : q ≠ p := by
            rintro rfl
            exact Bool.false_ne_true (h.2.2.symm.trans (isDir_iff.mpr ⟨m, hm⟩))
          exact ⟨m, by rw [Function.update_of_ne hqp, hm]⟩ }
  else t

theorem put_keeps (hqp : q ≠ p) (n : Node β) : Keeps now t (t.put p n) q := by
  unfold put
  split
  · exact .inl (Function.update_of_ne hqp ..)
  · exact .refl

theorem put_node (h : t.Room p) (n : Node β) : (t.put p n).node p = some n := by
  unfold put
  rw [dif_pos h]
  exact Function.update_self ..

/-- A new entry changes the directory it is in. -/
theorem put_parent (hdir : t.isDir p = true) (x : κ) (n : Node β) :
    ((t.put (p ++ [x]) n).touch p now).node p = some (.dir now) := by
  obtain ⟨m, hm⟩ := isDir_iff.mp hdir
  have hput : Keeps now t (t.put (p ++ [x]) n) p := put_keeps (by simp) _
  rw [touch_node]
  rcases hput with h | h <;> rw [h, hm] <;> rfl

/-- `t` without `p` and what is below it. -/
def cut (t : Tree κ β) (p : List κ) : Tree κ β where
  node q := if p <+: q then none else t.node q
  paths := t.paths
  listed q hq := by
    split at hq
    · exact absurd rfl hq
    · exact t.listed q hq
  closed q x hq := by
    split at hq
    · exact absurd rfl hq
    · rename_i hp
      obtain ⟨m, hm⟩ := t.closed q x hq
      exact ⟨m, by rw [if_neg (fun h => hp (h.trans (List.prefix_append ..))), hm]⟩

theorem cut_keeps (h : ¬ p <+: q) : Keeps now t (t.cut p) q := .inl (if_neg h)

/-- `old` with what is below it, now called `new`. -/
def move (t : Tree κ β) (old new : List κ) : Tree κ β :=
  if h : new ≠ [] ∧ t.isDir new.dropLast = true ∧ ¬ old <+: new then
    { node := fun q => if new <+: q then t.node (old ++ q.drop new.length)
        else if old <+: q then none else t.node q
      paths := t.paths ++ t.paths.map (fun q => new ++ q.drop old.length)
      listed := by
        intro q hq
        split at hq
        · rename_i hnew
          obtain ⟨rest, rfl⟩ := hnew
          rw [List.drop_left] at hq
          refine List.mem_append_right _ (List.mem_map.mpr ⟨_, t.listed _ hq, ?_⟩)
          rw [List.drop_left]
        · split at hq
          · exact absurd rfl hq
          · exact List.mem_append_left _ (t.listed q hq)
      closed := by
        intro q x hq
        split at hq
        · rename_i hnew
          rcases List.prefix_concat_iff.mp hnew with rfl | hin
          · -- The new entry itself is in a directory that has not moved.
            obtain ⟨m, hm⟩ := isDir_iff.mp h.2.1
            rw [List.dropLast_concat] at hm
            refine ⟨m, ?_⟩
            rw [if_neg (fun hp => absurd hp.length_le (by simp)),
              if_neg (fun hp => h.2.2 (hp.trans (List.prefix_append ..))), hm]
          · rw [List.drop_append_of_le_length hin.length_le, ← List.append_assoc] at hq
            obtain ⟨m, hm⟩ := t.closed _ _ hq
            exact ⟨m, by rw [if_pos hin, hm]⟩
        · rename_i hnew
          split at hq
          · exact absurd rfl hq
          · rename_i hold
            obtain ⟨m, hm⟩ := t.closed q x hq
            refine ⟨m, ?_⟩
            rw [if_neg (fun hp => hnew (hp.trans (List.prefix_append ..))),
              if_neg (fun hp => hold (hp.trans (List.prefix_append ..))), hm] }
  else t

theorem move_keeps (hold : ¬ old <+: q) (hnew : ¬ new <+: q) : Keeps now t (t.move old new) q := by
  unfold move
  split
  · exact .inl ((if_neg hnew).trans (if_neg hold))
  · exact .refl

theorem move_node (hdir : t.isDir new.dropLast = true) (hne : new ≠ []) (h : ¬ old <+: new)
    (rest : List κ) : (t.move old new).node (new ++ rest) = t.node (old ++ rest) := by
  unfold move
  rw [dif_pos ⟨hne, hdir, h⟩]
  show (if new <+: new ++ rest then _ else _) = _
  rw [if_pos (List.prefix_append ..), List.drop_left]

/-- The names in a directory. -/
def entries (t : Tree κ β) (p : List κ) : List κ :=
  (t.paths.filterMap (fun q =>
    if p <+: q ∧ q.length = p.length + 1 ∧ (t.node q).isSome then q.getLast? else none)).dedup

/-- `os.Mkdir`, where there is nothing yet. -/
def mkdir (t : Tree κ β) (p : List κ) (now : Nat) : Tree κ β :=
  (t.put p (.dir now)).touch p.dropLast now

/-- `os.MkdirAll` of `base ++ rest`, where `base` has been made. -/
def mkdirBelow (now : Nat) : Tree κ β → List κ → List κ → Option (Tree κ β)
  | t, base, [] => if t.isDir base then some t else none
  | t, base, x :: rest =>
    match t.node (base ++ [x]) with
    | some (.file ..) => none
    | some (.dir _) => mkdirBelow now t (base ++ [x]) rest
    | none => if t.isDir base then mkdirBelow now (t.mkdir (base ++ [x]) now) (base ++ [x]) rest else none

def mkdirAll (t : Tree κ β) (p : List κ) (now : Nat) : Option (Tree κ β) := mkdirBelow now t [] p

/-- `os.Rename`. A file takes the place of a file; a directory that is there is not replaced. -/
def rename (t : Tree κ β) (old new : List κ) (now : Nat) : Option (Tree κ β) :=
  match t.node old, t.node new with
  | none, _ => none
  | some (.dir _), some (.file ..) => none
  | some _, _ =>
    if old = new then some t
    else if old <+: new ∨ ¬ t.Room new then none
    else some (((t.move old new).touch old.dropLast now).touch new.dropLast now)

/-- `os.Remove`; a directory must be empty. -/
def remove (t : Tree κ β) (p : List κ) (now : Nat) : Option (Tree κ β) :=
  if t.node p = none ∨ t.entries p ≠ [] ∨ p = [] then none
  else some ((t.cut p).touch p.dropLast now)

/-- `os.RemoveAll`. -/
def removeAll (t : Tree κ β) (p : List κ) (now : Nat) : Tree κ β :=
  if t.node p = none then t else (t.cut p).touch p.dropLast now

/-- `os.Create`: the file is empty from now on. -/
def create (t : Tree κ (List β)) (p : List κ) (now : Nat) : Option (Tree κ (List β)) :=
  if t.Room p then
    let made := t.put p (.file [] now)
    some (if t.node p = none then made.touch p.dropLast now else made)
  else none

theorem removeAll_keeps (h : ¬ p <+: q) : Keeps now t (t.removeAll p now) q := by
  unfold removeAll
  split
  · exact .refl
  · exact (cut_keeps h).trans (touch_keeps ..)

theorem mkdir_keeps (hqp : q ≠ p) : Keeps now t (t.mkdir p now) q :=
  (put_keeps hqp _).trans (touch_keeps ..)

theorem mkdir_parent (hdir : t.isDir p = true) (x : κ) :
    (t.mkdir (p ++ [x]) now).node p = some (.dir now) := by
  unfold mkdir
  rw [List.dropLast_concat]
  exact put_parent hdir x _

/-- What was there stays, and nothing is made but the directories on the way. -/
theorem mkdirBelow_keeps (h : mkdirBelow now t base rest = some t')
    (hq : t.node q ≠ none ∨ ¬ q <+: base ++ rest) : Keeps now t t' q := by
  induction rest generalizing t base with
  | nil =>
    simp only [mkdirBelow, Option.ite_none_right_eq_some, Option.some.injEq] at h
    rw [h.2]
    exact .refl
  | cons x rest ih =>
    rw [List.append_cons] at hq
    simp only [mkdirBelow] at h
    split at h
    · cases h
    · exact ih h hq
    · rename_i hnone
      rw [Option.ite_none_right_eq_some] at h
      have hne : q ≠ base ++ [x] := by
        rintro rfl
        rcases hq with hq | hq
        · exact hq hnone
        · exact hq (List.prefix_append ..)
      have hmade : Keeps now t (t.mkdir (base ++ [x]) now) q := mkdir_keeps hne
      exact hmade.trans (ih h.2 (hq.imp_left hmade.present))

/-- The directory in which the first new one is made has changed. -/
theorem mkdirBelow_fresh (h : mkdirBelow now t base rest = some t')
    (hq : q ++ [y] <+: base ++ rest) (hnone : t.node (q ++ [y]) = none) :
    t'.node q = some (.dir now) := by
  induction rest generalizing t base with
  | nil =>
    simp only [mkdirBelow, Option.ite_none_right_eq_some, isDir_iff] at h
    rw [List.append_nil] at hq
    obtain ⟨⟨m, hm⟩, -⟩ := h
    rw [node_below_none hnone hq] at hm
    cases hm
  | cons x rest ih =>
    rw [List.append_cons base] at hq
    simp only [mkdirBelow] at h
    split at h
    · cases h
    · exact ih h hq hnone
    · rw [Option.ite_none_right_eq_some] at h
      by_cases hsame : q ++ [y] = base ++ [x]
      · have hbase : q = base := (List.append_inj' hsame rfl).1
        have hmade : (t.mkdir (base ++ [x]) now).node q = some (.dir now) :=
          hbase ▸ mkdir_parent h.1 x
        exact (mkdirBelow_keeps h.2 (.inl (by rw [hmade]; simp))).dir_now hmade
      · exact ih h.2 hq ((mkdir_keeps hsame).absent hnone)

theorem rename_moved (h : t.rename old new now = some t') (hne : old ≠ new) :
    Moved now t t' old new := by
  unfold rename at h
  split at h
  · cases h
  · cases h
  rw [if_neg hne, Option.ite_none_left_eq_some, not_or, not_not] at h
  obtain ⟨⟨hapart, hroom⟩, h⟩ := h
  have hk : ∀ q, Keeps now (t.move old new) t' q := by
    intro q
    rw [← Option.some.inj h]
    exact (touch_keeps ..).trans (touch_keeps ..)
  refine ⟨hapart, ?_, ?_, ?_⟩
  · intro q _ hold hnew
    exact (move_keeps hold hnew).trans (hk q)
  · intro rest c m hm
    rw [← move_node hroom.2.1 hroom.1 hapart] at hm
    exact (hk _).file hm
  · intro q y hq hnone
    have hnew := hroom.eq_of_missing hq hnone
    obtain ⟨m, hm⟩ := isDir_iff.mp hroom.2.1
    have hq' : Keeps now t (t.move old new) q := by
      apply move_keeps
      · intro hp
        exact hapart (hp.trans (hnew ▸ List.prefix_append ..))
      · intro hp
        rw [hnew] at hp
        exact absurd hp.length_le (by simp)
    rw [hnew, List.dropLast_concat] at hm
    rw [← Option.some.inj h, hnew, List.dropLast_concat, touch_node]
    rcases hq'.trans (touch_keeps _ old.dropLast q now) with hd | hd <;> rw [hnew] at hd <;>
      rw [hd, hm] <;> rfl

/-- The directories on the way to `dest` may be made first. -/
theorem Moved.after_mkdirAll (hmk : t.mkdirAll par now = some t') (h : Moved now t' t'' src (par ++ [x])) :
    Moved now t t'' src (par ++ [x]) := by
  have hk : ∀ q, t.node q ≠ none → Keeps now t t' q := fun q hq => mkdirBelow_keeps hmk (.inl hq)
  have hlonger : ∀ q, q <+: par → ¬ par ++ [x] <+: q := by
    intro q hq hp
    exact absurd (hp.trans hq).length_le (by simp)
  refine ⟨h.apart, ?_, ?_, ?_⟩
  · intro q hq hs hd
    exact (hk q hq).trans (h.others q ((hk q hq).present hq) hs hd)
  · intro rest c m hm
    obtain ⟨m', hm'⟩ := (hk _ (by rw [hm]; simp)).file hm
    exact h.files rest c m' hm'
  · intro q y hq hnone
    rcases List.prefix_concat_iff.mp hq with hq | hq
    · apply h.fresh q y (hq ▸ List.prefix_refl _)
      apply Keeps.absent (mkdirBelow_keeps hmk (.inr ?_)) hnone
      rw [hq, List.nil_append]
      exact fun hp => hlonger par (List.prefix_refl _) hp
    · have hmade := mkdirBelow_fresh hmk hq hnone
      have hqpar : q <+: par := (List.prefix_append q [y]).trans hq
      refine Keeps.dir_now (h.others q (by rw [hmade]; simp) ?_ (hlonger q hqpar)) hmade
      exact fun hp => h.apart (hp.trans (hqpar.trans (List.prefix_append ..)))

/-- An empty directory. -/
def root (m : Nat) : Tree κ β where
  node p := if p = [] then some (.dir m) else none
  paths := [[]]
  listed p hp := by
    split at hp
    · rename_i h
      exact h ▸ List.mem_cons_self
    · exact absurd rfl hp
  closed p x hp := absurd (if_neg (by simp)) hp

end Changes

section Contents

variable [DecidableEq κ] {fs fs' : Tree κ (List β)}

theorem create_keeps (h : fs.create p now = some fs') (hqp : q ≠ p) : Keeps now fs fs' q := by
  simp only [create, Option.ite_none_right_eq_some, Option.some.injEq] at h
  rw [← h.2]
  split
  · exact (put_keeps hqp _).trans (touch_keeps ..)
  · exact put_keeps hqp _

theorem create_node (h : fs.create p now = some fs') :
    fs.Room p ∧ fs'.node p = some (.file [] now) := by
  simp only [create, Option.ite_none_right_eq_some, Option.some.injEq] at h
  obtain ⟨hroom, rfl⟩ := h
  refine ⟨hroom, ?_⟩
  have hput := put_node hroom (.file [] now)
  split
  · rcases touch_keeps (fs.put p (.file [] now)) p.dropLast p now with h | h
    · exact h.trans hput
    · rw [h, hput]
      rfl
  · exact hput

/-- The new file can be written to. -/
theorem create_room (h : fs.create p now = some fs') : fs'.Room p := by
  obtain ⟨⟨hne, hdir, -⟩, hnode⟩ := create_node h
  have hparent : p.dropLast ≠ p := by
    intro he
    have hlen := congrArg List.length he
    have hpos := List.length_pos_of_ne_nil hne
    rw [List.length_dropLast] at hlen
    omega
  refine ⟨hne, (create_keeps h hparent).isDir hdir, ?_⟩
  unfold isDir
  rw [hnode]

theorem create_parent (h : fs.create (q ++ [y]) now = some fs') (hnone : fs.node (q ++ [y]) = none) :
    fs'.node q = some (.dir now) := by
  simp only [create, Option.ite_none_right_eq_some, Option.some.injEq, if_pos hnone] at h
  obtain ⟨⟨-, hdir, -⟩, rfl⟩ := h
  rw [List.dropLast_concat] at hdir ⊢
  exact put_parent hdir y _

theorem remove_eq (h : t.remove p now = some t') : t' = (t.cut p).touch p.dropLast now := by
  simp only [remove, Option.ite_none_left_eq_some, Option.some.injEq] at h
  exact h.2.symm

/-- Making the file, copying and removing the source moves it. -/
theorem copied_moved (hmake : fs.create dest now = some fs') (hsrc : fs'.node src = some (.file c m))
    (hremove : (fs'.put dest (.file c now)).remove src now = some fs'') (hne : src ≠ dest) :
    Moved now fs fs'' src dest := by
  obtain ⟨hroom, hdest⟩ := create_node hmake
  have hapart : ¬ src <+: dest := by
    rintro ⟨rest, rfl⟩
    have hrest : rest = [] := eq_of_below_file hsrc (by rw [hdest]; simp)
    exact hne (by rw [hrest, List.append_nil])
  have hkept : ∀ q, ¬ src <+: q → q ≠ dest → Keeps now fs' fs'' q := by
    intro q hq hd
    rw [remove_eq hremove]
    exact ((put_keeps hd _).trans (cut_keeps hq)).trans (touch_keeps ..)
  refine ⟨hapart, ?_, ?_, ?_⟩
  · intro q _ hs hd
    have hqd : q ≠ dest := fun he => hd (he ▸ List.prefix_refl _)
    exact (create_keeps hmake hqd).trans (hkept q hs hqd)
  · intro rest c' m' hfile
    obtain ⟨m₀, hbefore⟩ := (create_keeps hmake hne).file_before hsrc
    have hrest : rest = [] := eq_of_below_file hbefore (by rw [hfile]; simp)
    subst hrest
    rw [List.append_nil, hbefore, Option.some.injEq, Node.file.injEq] at hfile
    rw [List.append_nil, ← hfile.1, remove_eq hremove]
    exact Keeps.file ((cut_keeps hapart).trans (touch_keeps ..)) (put_node (create_room hmake) _)
  · intro q y hq hnone
    have hd := hroom.eq_of_missing hq hnone
    subst hd
    refine (hkept q ?_ (by simp)).dir_now (create_parent hmake hnone)
    exact fun hp => hapart (hp.trans (List.prefix_append ..))

end Contents

end Tree

end Sonarr.Lib
