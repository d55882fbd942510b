import Sonarr.Commands.Queue
import Sonarr.Lib.Machine

namespace Sonarr.Sqlite
open Lib

/-- What a caller hands to `Write`: statements one after the other, each of which takes effect
on its own. What a statement finds is read off the database; one that fails ends the callback
with its error, which `wrap` is put before. -/
inductive Callback (σ : Type)
  | ret (err : Option String)
  | query (wrap : String) (next : σ → Callback σ)
  | exec (wrap : String) (write : σ → Except String σ) (next : σ → Callback σ)

variable {σ : Type}

namespace Callback

/-- The whole callback, when nothing comes between. -/
def run : Callback σ → σ → Option String × σ
  | .ret err, db => (err, db)
  | .query _ next, db => (next db).run db
  | .exec wrap write next, db => match write db with
    | .error e => (some (wrap ++ e), db)
    | .ok db' => (next db').run db'

/-- From `db`, the callback changes the database by `R` only, statement by statement. -/
def Steps (R : σ → σ → Prop) : Callback σ → σ → Prop
  | .ret _, _ => True
  | .query _ next, db => (next db).Steps R db
  | .exec _ write next, db => ∀ db', write db = .ok db' → R db db' ∧ (next db').Steps R db'

theorem Steps.mono {R R' : σ → σ → Prop} {cb : Callback σ} {db : σ}
    (hR : ∀ db db', R db db' → R' db db') (h : cb.Steps R db) : cb.Steps R' db := by
  induction cb generalizing db with
  | ret => trivial
  | query wrap next ih => exact ih db h
  | exec wrap write next ih =>
    intro db' hwrite
    obtain ⟨hstep, hrest⟩ := h db' hwrite
    exact ⟨hR db db' hstep, ih db' hrest⟩

theorem Steps.of_all {R : σ → σ → Prop} (hR : ∀ db db', R db db') (cb : Callback σ) (db : σ) :
    cb.Steps R db := by
  induction cb generalizing db with
  | ret => trivial
  | query wrap next ih => exact ih db db
  | exec wrap write next ih => exact fun db' _ => ⟨hR db db', ih db' db'⟩

end Callback

/-- How far a call of `Write` has come. The answer waits in the request's own channel. -/
inductive Call
  | idle
  | submitting
  | submitted
  | answered (err : Option String)
  | returned (err : Option String)
  deriving DecidableEq, Repr

/-- The writer goroutine; `wrote` remembers whether the callback has changed anything. -/
inductive Writer (σ : Type)
  | waiting
  | running (call : Nat) (wrote : Bool) (rest : Callback σ)
  | stopped

/-- A pool. `log` lists the calls whose callback has returned nil, as they did, and whether it
had changed anything. -/
structure Pool (σ : Type) where
  db : σ
  writer : Writer σ
  calls : Nat → Call
  cancelled : Nat → Bool
  closed : Bool
  log : List (Nat × Bool)

namespace Pool

def start (db : σ) : Pool σ := ⟨db, .waiting, fun _ => .idle, fun _ => false, false, []⟩

def setCall (s : Pool σ) (i : Nat) (call : Call) : Pool σ :=
  { s with calls := Function.update s.calls i call }

inductive Action
  | write (i : Nat)
  | cancel (i : Nat)
  | close
  | refuse (i : Nat)
  | giveUp (i : Nat)
  | handOver (i : Nat)
  | statement
  | fail (err : String)
  | interrupt
  | report
  | receive (i : Nat)
  | abandon (i : Nat)
  | stop

def canceled : String := "context canceled"

/-- The statement fails without effect. -/
def fail (s : Pool σ) (err : String) : Option (Pool σ) :=
  match s.writer with
  | .running i wrote (.query wrap _) | .running i wrote (.exec wrap _ _) =>
    some { s with writer := .running i wrote (.ret (some (wrap ++ err))) }
  | _ => none

/-- Runs the statement the callback is at. It is made with the caller's context, and
`database/sql` refuses one that has ended. -/
def statement (s : Pool σ) : Option (Pool σ) :=
  match s.writer with
  | .running i wrote rest =>
    if s.cancelled i then fail s canceled
    else match rest with
      | .ret _ => none
      | .query _ next => some { s with writer := .running i wrote (next s.db) }
      | .exec _ write next => match write s.db with
        | .error e => fail s e
        | .ok db => some { s with db, writer := .running i true (next db) }
  | _ => none

/-- The context ends while the statement runs: it takes effect and is reported as failed. -/
def interrupt (s : Pool σ) : Option (Pool σ) :=
  match s.writer with
  | .running i _ (.exec wrap write _) => match write s.db with
    | .error _ => none
    | .ok db =>
      if s.cancelled i then none
      else some { s with
        db
        cancelled := Function.update s.cancelled i true
        writer := .running i true (.ret (some (wrap ++ canceled))) }
  | _ => none

/-- The answer goes to the caller's channel, whether or not the caller still waits for it. -/
def report (s : Pool σ) : Option (Pool σ) :=
  match s.writer with
  | .running i wrote (.ret err) => some
      { s with
        writer := .waiting
        calls := if s.calls i = .submitted then Function.update s.calls i (.answered err) else s.calls
        log := if err = none then s.log ++ [(i, wrote)] else s.log }
  | _ => none

/-- `Write` and `writerLoop`. Where a `select` has several ways to go on, each is a step. -/
def step (callbacks : Nat → Callback σ) (s : Pool σ) : Action → Option (Pool σ)
  | .write i => if s.calls i = .idle then some (s.setCall i .submitting) else none
  | .cancel i => some { s with cancelled := Function.update s.cancelled i true }
  | .close => some { s with closed := true }
  | .refuse i =>
    if s.calls i = .submitting ∧ s.closed then
      some (s.setCall i (.returned (some "db: sqlite pool closed")))
    else none
  | .giveUp i =>
    if s.calls i = .submitting ∧ s.cancelled i then
      some (s.setCall i (.returned (some canceled)))
    else none
  | .handOver i => match s.writer with
    | .waiting =>
      if s.calls i = .submitting then
        some { s.setCall i .submitted with writer := .running i false (callbacks i) }
      else none
    | _ => none
  | .statement => statement s
  | .fail err => fail s err
  | .interrupt => interrupt s
  | .report => report s
  | .receive i => match s.calls i with
    | .answered err => some (s.setCall i (.returned err))
    | _ => none
  | .abandon i => match s.calls i with
    | .submitted | .answered _ =>
      if s.cancelled i then some (s.setCall i (.returned (some canceled))) else none
    | _ => none
  | .stop => match s.writer with
    | .waiting => if s.closed then some { s with writer := .stopped } else none
    | _ => none

/-- The call whose statement takes effect in a step. -/
def effect (s : Pool σ) : Action → Option Nat
  | .statement | .interrupt => match s.writer with
    | .running i _ (.exec _ write _) =>
      if s.cancelled i then none
      else match write s.db with
        | .error _ => none
        | .ok _ => some i
    | _ => none
  | _ => none

/-- No context ends between the first change its callback makes and the return of its `Write`,
and a callback that ends with an error has changed nothing. -/
def Careful (s : Pool σ) : Action → Prop
  | .cancel i => (∀ rest, s.writer ≠ .running i true rest) ∧
      (s.calls i = .answered none → (i, true) ∉ s.log)
  | .interrupt => False
  | .report => ∀ i wrote e, s.writer = .running i wrote (.ret (some e)) → wrote = false
  | _ => True

/-- The callbacks of a list of calls, each as a whole, one after the other. -/
def replay (callbacks : Nat → Callback σ) (log : List (Nat × Bool)) (db : σ) : σ :=
  log.foldl (fun db entry => ((callbacks entry.1).run db).2) db

/-- Every `Write` reports what happened: the database is what the calls in the log have made
of it, and what the callback that is running has done so far; a call that returned nil is in
the log, once; one that returned an error has changed nothing. -/
structure Truthful (callbacks : Nat → Callback σ) (db₀ : σ) (s : Pool σ) : Prop where
  settled : (∀ i rest, s.writer ≠ .running i true rest) → s.db = replay callbacks s.log db₀
  once : (s.log.map Prod.fst).Nodup
  ok : ∀ i, s.calls i = .returned none → ∃ wrote, (i, wrote) ∈ s.log
  failed : ∀ i e, s.calls i = .returned (some e) →
    (i, true) ∉ s.log ∧ ∀ rest, s.writer ≠ .running i true rest

/-- How far call `i` has come agrees with what the writer does and has done: a callback has
changed nothing if the context of its call has ended. -/
structure Stands (writer : Writer σ) (log : List (Nat × Bool)) (i : Nat) (cancelled : Bool)
    (call : Call) : Prop where
  held : ∀ wrote rest, writer = .running i wrote rest →
    call = .submitted ∨ cancelled = true ∧ ∃ e, call = .returned (some e)
  unlogged : ∀ wrote rest, writer = .running i wrote rest → i ∉ log.map Prod.fst
  spent : ∀ rest, writer = .running i true rest → cancelled = false
  awaited : call = .answered none → cancelled = true → (i, true) ∉ log
  ended : i ∈ log.map Prod.fst → (∃ err, call = .answered err) ∨ ∃ err, call = .returned err
  ok : call = .answered none ∨ call = .returned none → i ∈ log.map Prod.fst
  failed : (i, true) ∈ log → call = .answered none ∨ call = .returned none

section Stands
variable {writer writer' : Writer σ} {log : List (Nat × Bool)} {i : Nat} {cancelled : Bool}
  {call : Call}

/-- What the writer does for other calls is all the same. -/
theorem Stands.of_not_running (h : Stands writer log i cancelled call)
    (hnot : ∀ wrote rest, writer' ≠ .running i wrote rest) :
    Stands writer' log i cancelled call :=
  { h with
    held := fun wrote rest hrun => absurd hrun (hnot wrote rest)
    unlogged := fun wrote rest hrun => absurd hrun (hnot wrote rest)
    spent := fun rest hrun => absurd hrun (hnot true rest) }

/-- So is what it has done for them. -/
theorem Stands.log_other (h : Stands writer log i cancelled call) (hne : i ≠ j) :
    Stands writer (log ++ [(j, wrote)]) i cancelled call where
  held := h.held
  unlogged := fun wrote rest hrun => by simpa [hne] using h.unlogged wrote rest hrun
  spent := h.spent
  awaited := fun hcall hcancelled => by simpa [hne] using h.awaited hcall hcancelled
  ended := fun hmem => h.ended (by simpa [hne] using hmem)
  ok := fun hcall => by simpa [hne] using h.ok hcall
  failed := fun hmem => h.failed (by simpa [hne] using hmem)

/-- A call that has not been answered is not in the log. -/
theorem Stands.fresh (h : Stands writer log i cancelled call)
    (hcall : call = .idle ∨ call = .submitting ∨ call = .submitted) : i ∉ log.map Prod.fst := by
  intro hmem
  obtain ⟨err, rfl⟩ | ⟨err, rfl⟩ := h.ended hmem <;> simp at hcall

/-- A call that is not in the log stands wherever the writer does not run it. -/
theorem Stands.of_fresh (hnot : ∀ wrote rest, writer ≠ .running i wrote rest)
    (hfresh : i ∉ log.map Prod.fst) (hanswered : call ≠ .answered none)
    (hreturned : call ≠ .returned none) : Stands writer log i cancelled call where
  held := fun wrote rest hrun => absurd hrun (hnot wrote rest)
  unlogged := fun _ _ _ => hfresh
  spent := fun rest hrun => absurd hrun (hnot true rest)
  awaited := fun hcall => absurd hcall hanswered
  ended := fun hmem => absurd hmem hfresh
  ok := fun hcall => (hcall.elim hanswered hreturned).elim
  failed := fun hmem => absurd (List.mem_map_of_mem hmem) hfresh

end Stands

/-- What the truth of every report rests on. -/
structure Inv (callbacks : Nat → Callback σ) (db₀ : σ) (s : Pool σ) : Prop where
  settled : (∀ i rest, s.writer ≠ .running i true rest) → s.db = replay callbacks s.log db₀
  underway : ∀ i wrote rest, s.writer = .running i wrote rest → (∃ e, rest = .ret (some e)) ∨
    rest.run s.db = (callbacks i).run (replay callbacks s.log db₀)
  stands : ∀ i, Stands s.writer s.log i (s.cancelled i) (s.calls i)
  once : (s.log.map Prod.fst).Nodup

variable {callbacks : Nat → Callback σ} {db₀ : σ} {s t : Pool σ}

theorem inv_start (callbacks : Nat → Callback σ) (db₀ : σ) : Inv callbacks db₀ (start db₀) where
  settled := fun _ => rfl
  underway := by simp [start]
  stands := fun i => .of_fresh (by simp [start]) (by simp [start]) (by simp [start])
    (by simp [start])
  once := by simp [start]

theorem Inv.truthful (h : Inv callbacks db₀ s) : Truthful callbacks db₀ s where
  settled := h.settled
  once := h.once
  ok := fun i hi => by simpa using (h.stands i).ok (.inr hi)
  failed := by
    intro i e hi
    refine ⟨fun hmem => ?_, fun rest hrun => ?_⟩
    · simpa [hi] using (h.stands i).failed hmem
    · obtain hcall | ⟨hcancelled, _⟩ := (h.stands i).held true rest hrun
      · simp [hi] at hcall
      · simp [(h.stands i).spent rest hrun] at hcancelled

theorem Inv.setCall (h : Inv callbacks db₀ s)
    (hcall : Stands s.writer s.log i (s.cancelled i) call) :
    Inv callbacks db₀ (s.setCall i call) :=
  { h with
    stands := by
      intro j
      simp only [Pool.setCall]
      by_cases hne : j = i
      · subst hne
        rwa [Function.update_self]
      · rw [Function.update_of_ne hne]
        exact h.stands j }

/-- The writer is not at a call that it has not been handed. -/
theorem Inv.not_running (h : Inv callbacks db₀ s)
    (hcall : s.calls i ≠ .submitted) (hfailed : ∀ e, s.calls i ≠ .returned (some e)) :
    ∀ wrote rest, s.writer ≠ .running i wrote rest := by
  intro wrote rest hrun
  obtain hheld | ⟨_, e, hheld⟩ := (h.stands i).held wrote rest hrun
  · exact hcall hheld
  · exact hfailed e hheld

/-- A call moves on that the writer has not been handed. -/
theorem Inv.proceed (h : Inv callbacks db₀ s) (hcall : s.calls i = .idle ∨ s.calls i = .submitting)
    (hanswered : call ≠ .answered none) (hreturned : call ≠ .returned none) :
    Inv callbacks db₀ (s.setCall i call) := by
  refine h.setCall (.of_fresh (h.not_running ?_ ?_) ((h.stands i).fresh (hcall.imp_right .inl))
    hanswered hreturned)
  · rcases hcall with hcall | hcall <;> simp [hcall]
  · rcases hcall with hcall | hcall <;> simp [hcall]

theorem Inv.handOver (h : Inv callbacks db₀ s) (hwait : s.writer = .waiting)
    (hcall : s.calls i = .submitting) :
    Inv callbacks db₀
      { s.setCall i .submitted with writer := .running i false (callbacks i) } := by
  have hfresh : i ∉ s.log.map Prod.fst := (h.stands i).fresh (.inr (.inl hcall))
  have hset : Inv callbacks db₀ (s.setCall i .submitted) :=
    h.proceed (.inr hcall) (by simp) (by simp)
  have hdb : s.db = replay callbacks s.log db₀ := h.settled (by simp [hwait])
  exact { hset with
    settled := fun _ => hdb
    underway := by
      intro j wrote rest hrun
      cases hrun
      exact .inr (congrArg (callbacks i).run hdb)
    stands := by
      intro j
      by_cases hne : j = i
      · subst hne
        exact { hset.stands j with
          held := fun _ _ _ => .inl (Function.update_self ..)
          unlogged := fun _ _ _ => hfresh
          spent := fun rest hrun => by cases hrun }
      · exact (hset.stands j).of_not_running (fun _ _ hrun => by
          cases hrun
          exact hne rfl) }

/-- The callback that is running goes on. -/
theorem Inv.goOn {db : σ} (h : Inv callbacks db₀ s) (hrun : s.writer = .running i wrote rest)
    (hwrote : wrote' = false → db = replay callbacks s.log db₀)
    (hspent : wrote' = true → s.cancelled i = false)
    (hrest : (∃ e, rest' = .ret (some e)) ∨
      rest'.run db = (callbacks i).run (replay callbacks s.log db₀)) :
    Inv callbacks db₀ { s with db, writer := .running i wrote' rest' } :=
  { h with
    settled := by
      intro hnot
      cases wrote' with
      | false => exact hwrote rfl
      | true => exact absurd rfl (hnot i rest')
    underway := by
      intro j _ _ hj
      cases hj
      exact hrest
    stands := by
      intro j
      by_cases hne : j = i
      · subst hne
        exact { h.stands j with
          held := fun _ _ _ => (h.stands j).held wrote rest hrun
          unlogged := fun _ _ _ => (h.stands j).unlogged wrote rest hrun
          spent := fun _ hj => hspent (by cases hj; rfl) }
      · exact (h.stands j).of_not_running (fun _ _ hj => by
          cases hj
          exact hne rfl) }

/-- What a callback that has changed nothing finds. -/
theorem Inv.unwritten (h : Inv callbacks db₀ s) (hrun : s.writer = .running i wrote rest)
    (hwrote : wrote = false) : s.db = replay callbacks s.log db₀ := by
  refine h.settled (fun j rest' hj => ?_)
  cases hj.symm.trans hrun
  cases hwrote

/-- A callback that has written is that of a live call. -/
theorem Inv.live (h : Inv callbacks db₀ s) (hrun : s.writer = .running i wrote rest)
    (hwrote : wrote = true) : s.cancelled i = false :=
  (h.stands i).spent rest (hwrote ▸ hrun)

theorem Inv.fail (h : Inv callbacks db₀ s) (hstep : fail s err = some t) :
    Inv callbacks db₀ t := by
  unfold Pool.fail at hstep
  split at hstep
  · rename_i hrun
    cases hstep
    exact h.goOn hrun (h.unwritten hrun) (h.live hrun) (.inl ⟨_, rfl⟩)
  · rename_i hrun
    cases hstep
    exact h.goOn hrun (h.unwritten hrun) (h.live hrun) (.inl ⟨_, rfl⟩)
  · cases hstep

theorem Inv.statement (h : Inv callbacks db₀ s) (hstep : statement s = some t) :
    Inv callbacks db₀ t := by
  unfold Pool.statement at hstep
  split at hstep
  · rename_i i wrote rest hrun
    split at hstep
    · exact h.fail hstep
    · rename_i hlive
      split at hstep
      · cases hstep
      · cases hstep
        refine h.goOn hrun (h.unwritten hrun) (h.live hrun) ?_
        exact (h.underway i _ _ hrun).imp_left (fun ⟨e, he⟩ => by cases he)
      · rename_i wrap write next
        have hunder := (h.underway i _ _ hrun).resolve_left (fun ⟨e, he⟩ => by cases he)
        split at hstep
        · exact h.fail hstep
        · rename_i db hwrite
          cases hstep
          refine h.goOn hrun (fun hw => by cases hw) (fun _ => Bool.eq_false_iff.mpr hlive) (.inr ?_)
          simpa [Callback.run, hwrite] using hunder
  · cases hstep

/-- The whole callback has run, or nothing of it. -/
theorem Inv.settle (h : Inv callbacks db₀ s) (hrun : s.writer = .running i wrote (.ret err))
    (hcareful : ∀ e, err = some e → wrote = false) :
    s.db = replay callbacks (if err = none then s.log ++ [(i, wrote)] else s.log) db₀ := by
  cases err with
  | none =>
    have hwhole := (h.underway i _ _ hrun).resolve_left (fun ⟨e, he⟩ => by cases he)
    have := congrArg Prod.snd hwhole
    simpa [replay, Callback.run] using this
  | some e => exact h.unwritten hrun (hcareful e rfl)

/-- What the caller is told of a callback that has ended is what the log says of it, if it has
not written in vain. -/
theorem Inv.stands_report (h : Inv callbacks db₀ s)
    (hrun : s.writer = .running i wrote (.ret err)) :
    Stands (.waiting : Writer σ) (if err = none then s.log ++ [(i, wrote)] else s.log) i
      (s.cancelled i) (if s.calls i = .submitted then .answered err else s.calls i) := by
  have hnew := (h.stands i).unlogged _ _ hrun
  have hunmarked : (i, true) ∉ s.log := fun hmem => hnew (List.mem_map_of_mem hmem)
  have hwrote : s.cancelled i = true → wrote = false := fun hcancelled => by
    rw [Bool.eq_false_iff]
    intro hwrote
    simp [h.live hrun hwrote] at hcancelled
  obtain hcall | ⟨hcancelled, e, hcall⟩ := (h.stands i).held _ _ hrun
  · rw [if_pos hcall]
    cases err with
    | none =>
      exact ⟨by simp, by simp, by simp, fun _ hc => by simp [hwrote hc, hunmarked],
        fun _ => .inl ⟨none, rfl⟩, by simp, fun _ => .inl rfl⟩
    | some e => exact .of_fresh (by simp) (by simpa using hnew) (by simp) (by simp)
  · -- nobody waits for the answer, and nothing has been written
    have hother : s.calls i ≠ .submitted := by simp [hcall]
    rw [if_neg hother, hwrote hcancelled]
    cases err with
    | none =>
      exact ⟨by simp, by simp, by simp, by simp [hcall], fun _ => .inr ⟨_, hcall⟩, by simp [hcall],
        by simp [hunmarked]⟩
    | some e' =>
      exact .of_fresh (by simp) (by simpa using hnew) (by simp [hcall]) (by simp [hcall])

theorem Inv.report (h : Inv callbacks db₀ s)
    (hcareful : ∀ i wrote e, s.writer = .running i wrote (.ret (some e)) → wrote = false)
    (hstep : report s = some t) : Inv callbacks db₀ t := by
  unfold Pool.report at hstep
  split at hstep
  · rename_i i wrote err hrun
    cases hstep
    exact {
      settled := fun _ => h.settle hrun (fun e he => hcareful i wrote e (he ▸ hrun))
      underway := by simp
      stands := by
        intro j
        by_cases hne : j = i
        · subst hne
          have hself := h.stands_report hrun
          split_ifs at hself ⊢ <;> simpa using hself
        · have hother : Stands (.waiting : Writer σ)
              (if err = none then s.log ++ [(i, wrote)] else s.log) j (s.cancelled j)
              (s.calls j) := by
            have hold : Stands (.waiting : Writer σ) s.log j (s.cancelled j) (s.calls j) :=
              (h.stands j).of_not_running (by simp)
            split
            · exact hold.log_other hne
            · exact hold
          split_ifs at hother ⊢ <;> simpa [Function.update_of_ne hne] using hother
      once := by
        have hnew := (h.stands i).unlogged _ _ hrun
        dsimp only
        split
        · simp only [List.map_append, List.map_cons, List.map_nil]
          exact h.once.append (List.nodup_singleton i) (by simpa using hnew)
        · exact h.once }
  · cases hstep

theorem Inv.receive (h : Inv callbacks db₀ s) (hcall : s.calls i = .answered err) :
    Inv callbacks db₀ (s.setCall i (.returned err)) := by
  have hstands := h.stands i
  have hnot := h.not_running (i := i) (by simp [hcall]) (by simp [hcall])
  rw [hcall] at hstands
  refine h.setCall { hstands with
    held := fun wrote rest hrun => absurd hrun (hnot wrote rest)
    awaited := by simp
    ended := fun _ => .inr ⟨err, rfl⟩
    ok := fun hnil => hstands.ok (.inl (by simpa using hnil))
    failed := fun hmem => by simpa using hstands.failed hmem }

theorem abandon_ok (h : step callbacks s (.abandon i) = some t) : s.cancelled i = true ∧
    (s.calls i = .submitted ∨ ∃ err, s.calls i = .answered err) ∧
      t = s.setCall i (.returned (some canceled)) := by
  cases hcall : s.calls i with
  | submitted | answered =>
    simp only [step, hcall, Option.ite_none_right_eq_some, Option.some.injEq] at h
    exact ⟨h.1, by simp, h.2.symm⟩
  | _ => simp [step, hcall] at h

/-- A caller that stops waiting: its callback has changed nothing, and will not. -/
theorem Inv.abandon (h : Inv callbacks db₀ s) (hcancelled : s.cancelled i = true)
    (hcall : s.calls i = .submitted ∨ ∃ err, s.calls i = .answered err) :
    Inv callbacks db₀ (s.setCall i (.returned (some canceled))) := by
  refine h.setCall { h.stands i with
    held := fun _ _ _ => .inr ⟨hcancelled, _, rfl⟩
    awaited := by simp
    ended := fun _ => .inr ⟨_, rfl⟩
    ok := by simp
    failed := fun hmem => ?_ }
  obtain hnil | hnil := (h.stands i).failed hmem
  · exact absurd hmem ((h.stands i).awaited hnil hcancelled)
  · simp [hnil] at hcall

theorem Inv.cancel (h : Inv callbacks db₀ s) (hrun : ∀ rest, s.writer ≠ .running i true rest)
    (hanswered : s.calls i = .answered none → (i, true) ∉ s.log) :
    Inv callbacks db₀ { s with cancelled := Function.update s.cancelled i true } :=
  { h with
    stands := by
      intro j
      by_cases hne : j = i
      · subst hne
        dsimp only
        rw [Function.update_self]
        exact { h.stands j with
          held := fun wrote rest hj =>
            ((h.stands j).held wrote rest hj).imp_right (fun ⟨_, hret⟩ => ⟨rfl, hret⟩)
          spent := fun rest hj => absurd hj (hrun rest)
          awaited := fun hj _ => hanswered hj }
      · dsimp only
        rw [Function.update_of_ne hne]
        exact h.stands j }

theorem Inv.step (h : Inv callbacks db₀ s) (hcareful : Careful s a)
    (hstep : step callbacks s a = some t) : Inv callbacks db₀ t := by
  cases a with
  | write i =>
    simp only [Pool.step, Option.ite_none_right_eq_some, Option.some.injEq] at hstep
    obtain ⟨hcall, rfl⟩ := hstep
    exact h.proceed (.inl hcall) (by simp) (by simp)
  | cancel i =>
    cases hstep
    exact h.cancel hcareful.1 hcareful.2
  | close =>
    cases hstep
    exact { h with }
  | refuse i | giveUp i =>
    simp only [Pool.step, Option.ite_none_right_eq_some, Option.some.injEq] at hstep
    obtain ⟨⟨hcall, _⟩, rfl⟩ := hstep
    exact h.proceed (.inr hcall) (by simp) (by simp)
  | handOver i =>
    simp only [Pool.step] at hstep
    split at hstep
    · rename_i hwait
      simp only [Option.ite_none_right_eq_some, Option.some.injEq] at hstep
      obtain ⟨hcall, rfl⟩ := hstep
      exact h.handOver hwait hcall
    · cases hstep
  | statement => exact h.statement hstep
  | fail err => exact h.fail hstep
  | interrupt => exact hcareful.elim
  | report => exact h.report hcareful hstep
  | receive i =>
    simp only [Pool.step] at hstep
    split at hstep
    · rename_i err hcall
      cases hstep
      exact h.receive hcall
    · cases hstep
  | abandon i =>
    obtain ⟨hcancelled, hcall, rfl⟩ := abandon_ok hstep
    exact h.abandon hcancelled hcall
  | stop =>
    simp only [Pool.step] at hstep
    split at hstep
    · rename_i hwait
      simp only [Option.ite_none_right_eq_some, Option.some.injEq] at hstep
      obtain ⟨_, rfl⟩ := hstep
      exact { h with
        settled := fun _ => h.settled (by simp [hwait])
        underway := by simp
        stands := fun i => (h.stands i).of_not_running (by simp) }
    · cases hstep

theorem inv_of_path (path : Path (step callbacks) Careful (start db₀) as s) :
    Inv callbacks db₀ s :=
  path.invariant (fun _ _ _ hcareful hstep h => h.step hcareful hstep) (inv_start callbacks db₀)

/-- What a step does to the database, the writer and the log; `e` is the call that takes effect. -/
inductive Turn (callbacks : Nat → Callback σ) (s : Pool σ) (a : Action) (t : Pool σ) :
    Option Nat → Prop
  | same (hdb : t.db = s.db) (hwriter : t.writer = s.writer) (hlog : t.log = s.log) :
      Turn callbacks s a t none
  | handOver (i : Nat) (hold : s.writer = .waiting) (hdb : t.db = s.db)
      (hwriter : t.writer = .running i false (callbacks i)) (hlog : t.log = s.log) :
      Turn callbacks s a t none
  | fail (i : Nat) (wrote : Bool) (rest : Callback σ) (err : String)
      (hold : s.writer = .running i wrote rest) (hdb : t.db = s.db)
      (hwriter : t.writer = .running i wrote (.ret (some err))) (hlog : t.log = s.log) :
      Turn callbacks s a t none
  | query (i : Nat) (wrote : Bool) (wrap : String) (next : σ → Callback σ)
      (hold : s.writer = .running i wrote (.query wrap next)) (hdb : t.db = s.db)
      (hwriter : t.writer = .running i wrote (next s.db)) (hlog : t.log = s.log) :
      Turn callbacks s a t none
  | exec (i : Nat) (wrote : Bool) (wrap : String) (write : σ → Except String σ)
      (next : σ → Callback σ) (rest : Callback σ)
      (hold : s.writer = .running i wrote (.exec wrap write next)) (hwrite : write s.db = .ok t.db)
      (hwriter : t.writer = .running i true rest)
      (hrest : rest = next t.db ∨ ∃ err, rest = .ret (some err)) (hlog : t.log = s.log) :
      Turn callbacks s a t (some i)
  | report (i : Nat) (wrote : Bool) (err : Option String) (haction : a = .report)
      (hold : s.writer = .running i wrote (.ret err)) (hdb : t.db = s.db)
      (hwriter : t.writer = .waiting)
      (hlog : t.log = if err = none then s.log ++ [(i, wrote)] else s.log) :
      Turn callbacks s a t none
  | stop (hold : s.writer = .waiting) (hdb : t.db = s.db) (hwriter : t.writer = .stopped)
      (hlog : t.log = s.log) : Turn callbacks s a t none

theorem turn_of_fail (h : fail s err = some t) : Turn callbacks s a t none := by
  unfold Pool.fail at h
  split at h
  · rename_i hrun
    cases h
    exact .fail _ _ _ _ hrun rfl rfl rfl
  · rename_i hrun
    cases h
    exact .fail _ _ _ _ hrun rfl rfl rfl
  · cases h

theorem turn_of_statement (h : statement s = some t) :
    Turn callbacks s .statement t (s.effect .statement) := by
  unfold Pool.statement at h
  split at h
  · rename_i i wrote rest hrun
    split at h
    · rename_i hcancelled
      have heffect : s.effect .statement = none := by
        cases rest <;> simp [effect, hrun, hcancelled]
      exact heffect ▸ turn_of_fail h
    · rename_i hlive
      split at h
      · cases h
      · cases h
        have heffect : s.effect .statement = none := by simp only [effect, hrun]
        exact heffect ▸ .query _ _ _ _ hrun rfl rfl rfl
      · split at h
        · rename_i hwrite
          have heffect : s.effect .statement = none := by simp [effect, hrun, hwrite]
          exact heffect ▸ turn_of_fail h
        · rename_i hwrite
          cases h
          have heffect : s.effect .statement = some i := by simp [effect, hrun, hlive, hwrite]
          exact heffect ▸ .exec _ _ _ _ _ _ hrun hwrite rfl (.inl rfl) rfl
  · cases h

theorem turn_of_interrupt (h : interrupt s = some t) :
    Turn callbacks s .interrupt t (s.effect .interrupt) := by
  unfold Pool.interrupt at h
  split at h
  · rename_i i _ _ _ _ hrun
    split at h
    · cases h
    · rename_i hwrite
      split at h
      · cases h
      · rename_i hlive
        cases h
        have heffect : s.effect .interrupt = some i := by simp [effect, hrun, hlive, hwrite]
        exact heffect ▸ .exec _ _ _ _ _ _ hrun hwrite rfl (.inr ⟨_, rfl⟩) rfl
  · cases h

theorem turn_of_step (h : step callbacks s a = some t) : Turn callbacks s a t (s.effect a) := by
  cases a with
  | statement => exact turn_of_statement h
  | fail err => exact turn_of_fail h
  | interrupt => exact turn_of_interrupt h
  | report =>
    simp only [Pool.step, Pool.report] at h
    split at h
    · rename_i hrun
      cases h
      exact .report _ _ _ rfl hrun rfl rfl rfl
    · cases h
  | handOver i =>
    simp only [Pool.step] at h
    split at h
    · rename_i hwait
      simp only [Option.ite_none_right_eq_some, Option.some.injEq] at h
      obtain ⟨_, rfl⟩ := h
      exact .handOver i hwait rfl rfl rfl
    · cases h
  | stop =>
    simp only [Pool.step] at h
    split at h
    · rename_i hwait
      simp only [Option.ite_none_right_eq_some, Option.some.injEq] at h
      obtain ⟨_, rfl⟩ := h
      exact .stop hwait rfl rfl rfl
    · cases h
  | write i | refuse i | giveUp i =>
    simp only [Pool.step, Option.ite_none_right_eq_some, Option.some.injEq] at h
    obtain ⟨_, rfl⟩ := h
    exact .same rfl rfl rfl
  | cancel i | close =>
    cases h
    exact .same rfl rfl rfl
  | receive i =>
    simp only [Pool.step] at h
    split at h <;> cases h
    exact .same rfl rfl rfl
  | abandon i =>
    obtain ⟨_, _, rfl⟩ := abandon_ok h
    exact .same rfl rfl rfl

/-- The callback that is running changes the database by its own relation only. -/
def Stepping (R : Nat → σ → σ → Prop) (s : Pool σ) : Prop :=
  ∀ i wrote rest, s.writer = .running i wrote rest → rest.Steps (R i) s.db

theorem stepping_start (R : Nat → σ → σ → Prop) : Stepping R (start db₀) :=
  fun _ _ _ hrun => by cases hrun

namespace Turn
variable {R : Nat → σ → σ → Prop} {e : Option Nat}

theorem stepping (hturn : Turn callbacks s a t e) (hsteps : ∀ i db, (callbacks i).Steps (R i) db)
    (h : Stepping R s) : Stepping R t := by
  intro j wrote' rest' hrun
  cases hturn with
  | same hdb hwriter hlog =>
    rw [hdb]
    exact h j wrote' rest' (hwriter ▸ hrun)
  | handOver i hold hdb hwriter hlog =>
    cases hwriter.symm.trans hrun
    exact hsteps j t.db
  | fail i wrote rest err hold hdb hwriter hlog =>
    cases hwriter.symm.trans hrun
    trivial
  | query i wrote wrap next hold hdb hwriter hlog =>
    cases hwriter.symm.trans hrun
    rw [hdb]
    exact h j wrote' (.query wrap next) hold
  | exec i wrote wrap write next rest hold hwrite hwriter hrest hlog =>
    cases hwriter.symm.trans hrun
    obtain rfl | ⟨err, rfl⟩ := hrest
    · exact (h j wrote _ hold t.db hwrite).2
    · trivial
  | report i wrote err haction hold hdb hwriter hlog => cases hwriter.symm.trans hrun
  | stop hold hdb hwriter hlog => cases hwriter.symm.trans hrun

/-- Only the call that takes effect changes the database, and it does so by its relation. -/
theorem changed (hturn : Turn callbacks s a t e) (h : Stepping R s) :
    e = none ∧ t.db = s.db ∨
      ∃ i rest, e = some i ∧ t.writer = .running i true rest ∧ R i s.db t.db := by
  cases hturn with
  | exec i wrote wrap write next rest hold hwrite hwriter hrest hlog =>
    exact .inr ⟨i, rest, rfl, hwriter, (h i wrote _ hold t.db hwrite).1⟩
  | _ => exact .inl ⟨rfl, ‹_›⟩

/-- A callback that has written does not let go of the writer before it reports. -/
theorem running (hturn : Turn callbacks s a t e) (hrun : s.writer = .running i true rest) :
    (∃ rest', t.writer = .running i true rest') ∨ ∃ err, a = .report ∧ rest = .ret err ∧
      t.log = if err = none then s.log ++ [(i, true)] else s.log := by
  cases hturn with
  | same hdb hwriter hlog => exact .inl ⟨rest, hwriter.trans hrun⟩
  | handOver j hold hdb hwriter hlog => cases hold.symm.trans hrun
  | fail j wrote rest' err hold hdb hwriter hlog =>
    cases hold.symm.trans hrun
    exact .inl ⟨_, hwriter⟩
  | query j wrote wrap next hold hdb hwriter hlog =>
    cases hold.symm.trans hrun
    exact .inl ⟨_, hwriter⟩
  | exec j wrote wrap write next rest' hold hwrite hwriter hrest hlog =>
    cases hold.symm.trans hrun
    exact .inl ⟨_, hwriter⟩
  | report j wrote err haction hold hdb hwriter hlog =>
    cases hold.symm.trans hrun
    exact .inr ⟨err, haction, rfl, hlog⟩
  | stop hold hdb hwriter hlog => cases hold.symm.trans hrun

theorem log_subset (hturn : Turn callbacks s a t e) : s.log ⊆ t.log := by
  cases hturn with
  | report i wrote err haction hold hdb hwriter hlog =>
    rw [hlog]
    split
    · exact List.subset_append_left ..
    · exact List.Subset.refl _
  | _ =>
    rename_i hlog
    exact hlog ▸ List.Subset.refl _

end Turn

/-- If call `i` has not changed anything for good and is not about to, `Q` holds. -/
def Spared (Q : σ → Prop) (i : Nat) (s : Pool σ) : Prop :=
  (i, true) ∉ s.log → (∀ rest, s.writer ≠ .running i true rest) → Q s.db

variable {Q : σ → Prop}

theorem Spared.step (h : Spared Q i s)
    (hothers : Stepping (fun j db db' => j ≠ i → Q db → Q db') s)
    (hcareful : Careful s a) (hstep : step callbacks s a = some t) : Spared Q i t := by
  intro hlog hnot
  have hturn := turn_of_step hstep
  have hbefore : ∀ rest, s.writer ≠ .running i true rest := by
    intro rest hrun
    obtain ⟨rest', hrun'⟩ | ⟨err, rfl, rfl, hlog'⟩ := hturn.running hrun
    · exact hnot rest' hrun'
    · -- a callback that has written does not end with an error, so it is in the log
      cases err with
      | none => simp [hlog'] at hlog
      | some e => cases hcareful i true e hrun
  have hQ : Q s.db := h (fun hmem => hlog (hturn.log_subset hmem)) hbefore
  obtain ⟨_, hsame⟩ | ⟨j, rest, _, hrun, hkeep⟩ := hturn.changed hothers
  · exact hsame ▸ hQ
  · exact hkeep (fun heq => hnot rest (heq ▸ hrun)) hQ

/-- What the other calls keep, a call that returns an error has kept. -/
theorem preserved_of_failed (path : Path (step callbacks) Careful (start db₀) as s) (hQ : Q db₀)
    (hothers : ∀ j, j ≠ i → ∀ db, (callbacks j).Steps (fun db db' => Q db → Q db') db)
    (hfailed : s.calls i = .returned (some e)) : Q s.db := by
  have hsteps : ∀ j db, (callbacks j).Steps (fun db db' => j ≠ i → Q db → Q db') db := by
    intro j db
    by_cases hne : j = i
    · exact .of_all (fun _ _ hother => absurd hne hother) _ _
    · exact (hothers j hne db).mono (fun _ _ hkeep _ => hkeep)
  have hboth : Spared Q i s ∧ Stepping (fun j db db' => j ≠ i → Q db → Q db') s := by
    refine path.invariant
      (P := fun s => Spared Q i s ∧ Stepping (fun j db db' => j ≠ i → Q db → Q db') s)
      (fun s a t hcareful hstep h => ?_) ⟨fun _ _ => hQ, stepping_start _⟩
    exact ⟨h.1.step h.2 hcareful hstep, (turn_of_step hstep).stepping hsteps h.2⟩
  obtain ⟨hlog, hnot⟩ := (inv_of_path path).truthful.failed i e hfailed
  exact hboth.1 hlog hnot

end Pool
end Sonarr.Sqlite
