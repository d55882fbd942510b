import Mathlib.Algebra.Ring.Int.Defs
import Mathlib.Algebra.Ring.Nat
import Sonarr.Lib.Digits
import Sonarr.Lib.Json

/-! The transport that paces the requests to TVDB and repeats those that are answered with 429.
Time is in nanoseconds and passes in waits, pauses and requests only. -/
namespace Sonarr.Tvdb.RateLimit
open Lib

structure RateLimitOptions where
  requestsPerSecond : Rat
  burst : Int
  maxRetries : Int

structure Limiter where
  limit : Rat
  burst : Int

structure RateLimitedTransport where
  limiter : Limiter
  maxRetries : Nat

def newRateLimitedTransport (opts : RateLimitOptions) : RateLimitedTransport where
  limiter := {
    limit := if opts.requestsPerSecond ≤ 0 then 5 else opts.requestsPerSecond
    burst := if opts.burst ≤ 0 then 10 else opts.burst }
  maxRetries := if opts.maxRetries ≤ 0 then 3 else opts.maxRetries.toNat

/-- A request as far as its body has not been read. -/
structure Request where
  method : String
  url : String
  header : List (String × String)
  body : String
  deriving DecidableEq, Repr

/-- What the inner transport leaves of a request: it reads the body to its end and closes it. -/
def Request.consumed (req : Request) : Request := { req with body := "" }

structure Response where
  statusCode : Int
  /-- The header `Retry-After`, empty if there is none. -/
  retryAfter : String
  deriving DecidableEq, Repr

inductive Error
  /-- The context's own error. -/
  | done
  /-- The limiter gives no token before the deadline. -/
  | limiter (text : String)
  | inner (text : String)
  deriving DecidableEq, Repr

inductive Event
  | token
  /-- The request with this number, and what is transmitted. -/
  | request (k : Nat) (sent : Request)
  /-- The body of the response to this request is closed. -/
  | close (k : Nat)
  deriving DecidableEq, Repr

abbrev Log := List (Nat × Event)

/-- What happens around the calls of the transport. -/
structure Env where
  /-- When the context is cancelled. -/
  done : Option Nat
  /-- How long the `Wait` before a request is to last. -/
  reserve : Nat → Except String Nat
  /-- What a request is answered, and after how long. -/
  answer : Nat → Except String Response
  latency : Nat → Nat
  /-- What a `select` does when both of its cases are ready. -/
  waitTie : Nat → Bool
  pauseTie : Nat → Bool

def Env.isDone (env : Env) (now : Nat) : Bool :=
  match env.done with
  | none => false
  | some c => decide (c ≤ now)

/-- Whether a `select` between a timer and the context takes the timer. -/
def Env.select (env : Env) (now timer : Nat) (tie : Bool) : Bool :=
  match env.done with
  | none => true
  | some c => if max c now < timer then false else if timer < c then true else tie

/-- `limiter.Wait`, which begins with a look at the context. -/
def Env.wait (env : Env) (k now : Nat) : Except Error Nat :=
  if env.isDone now then .error .done
  else match env.reserve k with
    | .error text => .error (.limiter text)
    | .ok delay =>
      if env.select now (now + delay) (env.waitTie k) then .ok (now + delay) else .error .done

def second : Int := 1000000000

def backoffDelay (resp : Response) (attempt : Nat) : Int :=
  let exponential := 2 ^ min attempt 6 * second
  if resp.retryAfter ≠ "" then
    match Digits.parseInt resp.retryAfter with
    | some secs => if 0 ≤ secs then Int.bmod (secs * second) (2 ^ 64) else exponential
    | none => exponential
  else exponential

/-- The pause before a retry. A timer of a negative time is ready at once. -/
def Env.pause (env : Env) (attempt : Nat) (resp : Response) (now : Nat) : Option Nat :=
  let timer := now + (backoffDelay resp attempt).toNat
  if env.select now timer (env.pauseTie attempt) then some timer else none

/-- A token and the request it is for. -/
def Env.send (env : Env) (k : Nat) (req : Request) (now : Nat) (log : Log) :
    Except Error (Response × Nat) × Log :=
  match env.wait k now with
  | .error e => (.error e, log)
  | .ok now =>
    let log := log ++ [(now, .token), (now, .request k req)]
    match env.answer k with
    | .error text => (.error (.inner text), log)
    | .ok resp => (.ok (resp, now + env.latency k), log)

structure Outcome where
  /-- The response that is returned, with the number of its request. -/
  result : Except Error (Nat × Response)
  log : Log

def Outcome.events (out : Outcome) : List Event := out.log.map Prod.snd

/-- The loop, with the retries that are left. -/
def Env.loop (env : Env) : Nat → Nat → Response → Request → Nat → Log → Outcome
  | 0, attempt, resp, _, _, log => ⟨.ok (attempt, resp), log⟩
  | n + 1, attempt, resp, req, now, log =>
    if resp.statusCode ≠ 429 then ⟨.ok (attempt, resp), log⟩
    else
      let log := log ++ [(now, .close attempt)]
      match env.pause attempt resp now with
      | none => ⟨.error .done, log⟩
      | some now =>
        match env.send (attempt + 1) req now log with
        | (.error e, log) => ⟨.error e, log⟩
        | (.ok (resp, now), log) => env.loop n (attempt + 1) resp req.consumed now log

def RateLimitedTransport.roundTrip (t : RateLimitedTransport) (env : Env) (req : Request)
    (now : Nat) : Outcome :=
  match env.send 0 req now [] with
  | (.error e, log) => ⟨.error e, log⟩
  | (.ok (resp, now), log) => env.loop t.maxRetries 0 resp req.consumed now log

/-- The request is answered with 429. -/
def Env.Limited (env : Env) (k : Nat) : Prop :=
  ∃ resp, env.answer k = .ok resp ∧ resp.statusCode = 429

/-- What is left of a request when it is sent for the `k`-th time. -/
def Request.left (req : Request) : Nat → Request
  | 0 => req
  | _ + 1 => req.consumed

/-- Rounds that end with a response thrown away. -/
def rounds (req : Request) : Nat → List Event
  | 0 => []
  | k + 1 => rounds req k ++ [.token, .request k (req.left k), .close k]

/-- Rounds, and the request that follows them. -/
def upTo (req : Request) (k : Nat) : List Event :=
  rounds req k ++ [.token, .request k (req.left k)]

/-- When the wait for the token of the `k`-th request begins, if all requests before it are answered
with 429 and nothing comes between. -/
def Env.ready (env : Env) (now : Nat) : Nat → Option Nat
  | 0 => some now
  | k + 1 => match env.ready now k, env.reserve k, env.answer k with
    | some begun, .ok delay, .ok resp =>
      if resp.statusCode = 429 then
        some (begun + delay + env.latency k + (backoffDelay resp k).toNat)
      else none
    | _, _, _ => none

/-- When the wait is over that begins at `begun`. -/
def Env.over (env : Env) (k begun : Nat) : Nat :=
  match env.reserve k with
  | .error _ => begun
  | .ok delay => begun + delay

/-- What comes of the `k`-th wait and its request, if the context lets them be. -/
def Env.attempt (env : Env) (k : Nat) : Except Error (Nat × Response) :=
  match env.reserve k, env.answer k with
  | .error text, _ => .error (.limiter text)
  | .ok _, .error text => .error (.inner text)
  | .ok _, .ok resp => .ok (k, resp)

/-- No request follows the `k`-th: no retry is left, or it is not answered with 429. -/
def Env.Final (t : RateLimitedTransport) (env : Env) (k : Nat) : Prop :=
  k = t.maxRetries ∨ (∃ text, env.reserve k = .error text) ∨ ¬ env.Limited k

/-- The four ways a call ends, each after some rounds. -/
inductive Ending (t : RateLimitedTransport) (env : Env) (req : Request) (now : Nat) :
    Except Error (Nat × Response) → List Event → Prop
  | cancelled (hk : k ≤ t.maxRetries) (hready : env.ready now k = some begun)
      (hdone : env.done = some c) (hover : c ≤ env.over k begun) :
      Ending t env req now (.error .done) (rounds req k)
  | refused (hk : k ≤ t.maxRetries) (hready : env.ready now k = some begun)
      (hreserve : env.reserve k = .error text) :
      Ending t env req now (.error (.limiter text)) (rounds req k)
  | failed (hk : k ≤ t.maxRetries) (hready : env.ready now k = some begun)
      (hreserve : env.reserve k = .ok delay) (hanswer : env.answer k = .error text) :
      Ending t env req now (.error (.inner text)) (upTo req k)
  | returned (hk : k ≤ t.maxRetries) (hready : env.ready now k = some begun)
      (hreserve : env.reserve k = .ok delay) (hanswer : env.answer k = .ok resp)
      (hlast : resp.statusCode ≠ 429 ∨ k = t.maxRetries) :
      Ending t env req now (.ok (k, resp)) (upTo req k)

section Steps
variable {env : Env} {now : Nat}

theorem select_le (h : env.select now timer tie = true) (hc : env.done = some c) :
    timer ≤ max c now := by
  simp only [Env.select, hc] at h
  split at h
  · cases h
  · omega

theorem le_of_select (h : env.select now timer tie = false) :
    ∃ c, env.done = some c ∧ c ≤ timer := by
  cases hc : env.done with
  | none => simp [Env.select, hc] at h
  | some c =>
    refine ⟨c, rfl, ?_⟩
    simp only [Env.select, hc] at h
    split at h
    · omega
    · split at h
      · cases h
      · omega

theorem isDone_iff : env.isDone now = true ↔ ∃ c, env.done = some c ∧ c ≤ now := by
  cases hc : env.done with
  | none => simp [Env.isDone, hc]
  | some c => simp [Env.isDone, hc]

/-- A token is given before the context is cancelled. -/
theorem wait_le (h : env.wait k now = .ok after) (hc : env.done = some c) : after ≤ c := by
  simp only [Env.wait] at h
  split at h
  · cases h
  · rename_i halive
    have hnow : now < c := by
      rw [isDone_iff] at halive
      by_contra hle
      exact halive ⟨c, hc, by omega⟩
    split at h
    · cases h
    · split at h
      · rename_i hselect
        cases h
        have hle := select_le hselect hc
        omega
      · cases h

theorem wait_ok (h : env.wait k now = .ok after) :
    ∃ delay, env.reserve k = .ok delay ∧ after = now + delay := by
  simp only [Env.wait] at h
  split at h
  · cases h
  · split at h
    · cases h
    · rename_i delay hreserve
      split at h
      · cases h
        exact ⟨delay, hreserve, rfl⟩
      · cases h

theorem le_over (env : Env) (k begun : Nat) : begun ≤ env.over k begun := by
  unfold Env.over
  split <;> omega

theorem wait_error (h : env.wait k now = .error e) :
    (e = .done ∧ ∃ c, env.done = some c ∧ c ≤ env.over k now) ∨
      ∃ text, e = .limiter text ∧ env.reserve k = .error text := by
  simp only [Env.wait] at h
  split at h
  · rename_i hdone
    cases h
    obtain ⟨c, hc, hle⟩ := isDone_iff.mp hdone
    exact .inl ⟨rfl, c, hc, Nat.le_trans hle (le_over env k now)⟩
  · split at h
    · cases h
      exact .inr ⟨_, rfl, ‹_›⟩
    · rename_i delay hreserve
      split at h
      · cases h
      · rename_i hselect
        cases h
        have hover : env.over k now = now + delay := by simp [Env.over, hreserve]
        exact .inl ⟨rfl, hover ▸ le_of_select (Bool.eq_false_iff.mpr hselect)⟩

theorem pause_none (h : env.pause attempt resp now = none) :
    ∃ c, env.done = some c ∧ c ≤ now + (backoffDelay resp attempt).toNat := by
  simp only [Env.pause] at h
  split at h
  · cases h
  · rename_i hselect
    exact le_of_select (Bool.eq_false_iff.mpr hselect)

theorem pause_some (h : env.pause attempt resp now = some resumed) :
    resumed = now + (backoffDelay resp attempt).toNat := by
  simp only [Env.pause] at h
  split at h
  · exact (Option.some.inj h).symm
  · cases h

theorem ready_succ (hready : env.ready now k = some begun) (hreserve : env.reserve k = .ok delay)
    (hanswer : env.answer k = .ok resp) (hstatus : resp.statusCode = 429) :
    env.ready now (k + 1) =
      some (begun + delay + env.latency k + (backoffDelay resp k).toNat) := by
  simp [Env.ready, hready, hreserve, hanswer, hstatus]

/-- Before a wait begins, all earlier ones have ended, and their requests got a 429. -/
theorem ready_before (hready : env.ready now k = some begun) (hj : j < k) :
    ∃ begun' delay, env.ready now j = some begun' ∧ env.reserve j = .ok delay ∧
      env.over j begun' ≤ begun ∧ env.Limited j := by
  induction k generalizing begun with
  | zero => cases hj
  | succ k ih =>
    simp only [Env.ready] at hready
    split at hready
    · rename_i start delay resp hstart hreserve hanswer
      split at hready
      · rename_i hstatus
        cases hready
        rcases Nat.lt_succ_iff_lt_or_eq.mp hj with hj | rfl
        · obtain ⟨begun', delay', hbegun, hdelay, hle, hlimited⟩ := ih hstart hj
          exact ⟨begun', delay', hbegun, hdelay, by omega, hlimited⟩
        · have hover : env.over j start = start + delay := by simp [Env.over, hreserve]
          exact ⟨start, delay, hstart, hreserve, by omega, resp, hanswer, hstatus⟩
      · cases hready
    · cases hready

theorem limited_of_ready (hready : env.ready now k = some begun) : ∀ j, j < k → env.Limited j := by
  intro j hj
  obtain ⟨_, _, _, _, _, hlimited⟩ := ready_before hready hj
  exact hlimited

/-- What sending a request can come to. -/
theorem send_cases (env : Env) (k : Nat) (req : Request) (now : Nat) (log : Log) :
    (∃ e, env.send k req now log = (.error e, log) ∧ env.wait k now = .error e) ∨
      ∃ after, env.wait k now = .ok after ∧
        ((∃ text, env.answer k = .error text ∧ env.send k req now log =
            (.error (.inner text), log ++ [(after, .token), (after, .request k req)])) ∨
          ∃ resp, env.answer k = .ok resp ∧ env.send k req now log =
            (.ok (resp, after + env.latency k),
              log ++ [(after, .token), (after, .request k req)])) := by
  simp only [Env.send]
  cases hwait : env.wait k now with
  | error e => exact .inl ⟨e, rfl, rfl⟩
  | ok after =>
    refine .inr ⟨after, rfl, ?_⟩
    cases env.answer k with
    | error text => exact .inl ⟨text, rfl, rfl⟩
    | ok resp => exact .inr ⟨resp, rfl, rfl⟩

end Steps

section Loop
variable {t : RateLimitedTransport} {env : Env} {req : Request}

/-- From a response held, the loop comes to an end of the call. -/
theorem loop_ending {attempt begun delay now₀ now : Nat} {resp : Response} {log : Log}
    (hn : attempt + n = t.maxRetries) (hready : env.ready now₀ attempt = some begun)
    (hreserve : env.reserve attempt = .ok delay) (hanswer : env.answer attempt = .ok resp)
    (hnow : now = begun + delay + env.latency attempt)
    (hlog : log.map Prod.snd = upTo req attempt) :
    Ending t env req now₀ (env.loop n attempt resp req.consumed now log).result
      (env.loop n attempt resp req.consumed now log).events := by
  induction n generalizing attempt begun delay now resp log with
  | zero =>
    simp only [Env.loop, Outcome.events, hlog]
    exact .returned (by omega) hready hreserve hanswer (.inr (by omega))
  | succ n ih =>
    simp only [Env.loop]
    split
    · rename_i hstatus
      simp only [Outcome.events, hlog]
      exact .returned (by omega) hready hreserve hanswer (.inl hstatus)
    · rename_i hstatus
      have hnext := ready_succ hready hreserve hanswer (not_not.mp hstatus)
      rw [← hnow] at hnext
      have hclosed : (log ++ [(now, Event.close attempt)]).map Prod.snd = rounds req (attempt + 1) := by
        simp [rounds, hlog, upTo]
      split
      · rename_i hpause
        obtain ⟨c, hc, hle⟩ := pause_none hpause
        simp only [Outcome.events, hclosed]
        exact .cancelled (by omega) hnext hc (Nat.le_trans hle (le_over env _ _))
      · rename_i resumed hpause
        rw [← pause_some hpause] at hnext
        rcases send_cases env (attempt + 1) req.consumed resumed (log ++ [(now, .close attempt)])
          with ⟨e, hsend, hwait⟩ | ⟨after, hwait, hsent⟩
        · simp only [hsend, Outcome.events, hclosed]
          rcases wait_error hwait with ⟨rfl, c, hc, hover⟩ | ⟨text, rfl, htext⟩
          · exact .cancelled (by omega) hnext hc hover
          · exact .refused (by omega) hnext htext
        · obtain ⟨wait, hwaited, rfl⟩ := wait_ok hwait
          rcases hsent with ⟨text, htext, hsend⟩ | ⟨resp', hresp, hsend⟩
          · simp only [hsend, Outcome.events, List.map_append, hclosed]
            exact .failed (by omega) hnext hwaited htext
          · simp only [hsend]
            apply ih (by omega) hnext hwaited hresp rfl
            rw [List.map_append, hclosed]
            rfl

theorem roundTrip_ending (t : RateLimitedTransport) (env : Env) (req : Request) (now : Nat) :
    Ending t env req now (t.roundTrip env req now).result (t.roundTrip env req now).events := by
  simp only [RateLimitedTransport.roundTrip]
  rcases send_cases env 0 req now [] with ⟨e, hsend, hwait⟩ | ⟨after, hwait, hsent⟩
  · simp only [hsend]
    rcases wait_error hwait with ⟨rfl, c, hc, hover⟩ | ⟨text, rfl, htext⟩
    · exact .cancelled (k := 0) (Nat.zero_le _) rfl hc hover
    · exact .refused (k := 0) (Nat.zero_le _) rfl htext
  · obtain ⟨delay, hreserve, rfl⟩ := wait_ok hwait
    rcases hsent with ⟨text, htext, hsend⟩ | ⟨resp, hresp, hsend⟩
    · simp only [hsend]
      exact .failed (k := 0) (Nat.zero_le _) rfl hreserve htext
    · simp only [hsend]
      exact loop_ending (Nat.zero_add _) rfl hreserve hresp rfl rfl

/-- No request of the log was sent after the context was cancelled. -/
def Timely (env : Env) (log : Log) : Prop :=
  ∀ c, env.done = some c → ∀ m k sent, (m, .request k sent) ∈ log → m ≤ c

theorem Timely.close (h : Timely env log) : Timely env (log ++ [(now, .close k)]) := by
  intro c hc m j sent hm
  apply h c hc m j sent
  simpa using hm

theorem Timely.send (h : Timely env log) (hwait : env.wait k now = .ok after) :
    Timely env (log ++ [(after, .token), (after, .request k req)]) := by
  intro c hc m j sent hm
  rcases List.mem_append.mp hm with hm | hm
  · exact h c hc m j sent hm
  · simp only [List.mem_cons, Prod.mk.injEq, reduceCtorEq, and_false, false_or, List.not_mem_nil,
      or_false] at hm
    rw [hm.1]
    exact wait_le hwait hc

/-- What closing a response and sending a request keep true of the log, the loop does. -/
theorem loop_log {P : Log → Prop} (hclose : ∀ log now k, P log → P (log ++ [(now, .close k)]))
    (hsend : ∀ log k req now after, P log → env.wait k now = .ok after →
      P (log ++ [(after, .token), (after, .request k req)]))
    {attempt now : Nat} {resp : Response} {log : Log} (h : P log) :
    P (env.loop n attempt resp req now log).log := by
  induction n generalizing attempt now resp req log with
  | zero => exact h
  | succ n ih =>
    simp only [Env.loop]
    split
    · exact h
    · have hclosed := hclose log now attempt h
      split
      · exact hclosed
      · rename_i resumed _
        rcases send_cases env (attempt + 1) req resumed (log ++ [(now, .close attempt)])
          with ⟨e, hsent, _⟩ | ⟨after, hwait, ⟨text, _, hsent⟩ | ⟨resp', _, hsent⟩⟩
        · simp only [hsent]
          exact hclosed
        · simp only [hsent]
          exact hsend _ _ _ _ _ hclosed hwait
        · simp only [hsent]
          exact ih (hsend _ _ _ _ _ hclosed hwait)

theorem roundTrip_timely (t : RateLimitedTransport) (env : Env) (req : Request) (now : Nat) :
    Timely env (t.roundTrip env req now).log := by
  have hempty : Timely env [] := by simp [Timely]
  simp only [RateLimitedTransport.roundTrip]
  rcases send_cases env 0 req now [] with
    ⟨e, hsend, _⟩ | ⟨after, hwait, ⟨text, _, hsend⟩ | ⟨resp, _, hsend⟩⟩
  · simp only [hsend]
    exact hempty
  · simp only [hsend]
    exact hempty.send hwait
  · simp only [hsend]
    exact loop_log (fun _ _ _ h => h.close) (fun _ _ _ _ _ h hwait => h.send hwait)
      (hempty.send hwait)

end Loop

def Event.isRequest : Event → Bool
  | .request _ _ => true
  | _ => false

def Requested (events : List Event) (k : Nat) : Prop := ∃ sent, .request k sent ∈ events

/-- Every token is followed by the request it is for, and no request has none. -/
def Paced : List Event → Prop
  | [] => True
  | .token :: .request _ _ :: events => Paced events
  | .close _ :: events => Paced events
  | _ => False

theorem Paced.append (hxs : Paced xs) (hys : Paced ys) : Paced (xs ++ ys) := by
  fun_induction Paced xs with
  | case1 => exact hys
  | case2 _ _ events ih => exact ih hxs
  | case3 _ events ih => exact ih hxs
  | case4 => exact hxs.elim

section Rounds
variable {req : Request}

theorem paced_rounds : ∀ k, Paced (rounds req k)
  | 0 => trivial
  | k + 1 => (paced_rounds k).append trivial

theorem paced_upTo (k : Nat) : Paced (upTo req k) := (paced_rounds k).append trivial

theorem countP_rounds : ∀ k, (rounds req k).countP Event.isRequest = k
  | 0 => rfl
  | k + 1 => by simp [rounds, countP_rounds k, Event.isRequest, List.countP_cons]

theorem countP_upTo (k : Nat) : (upTo req k).countP Event.isRequest = k + 1 := by
  simp [upTo, countP_rounds k, Event.isRequest, List.countP_cons]

theorem mem_rounds : .request j sent ∈ rounds req k ↔ j < k ∧ sent = req.left j := by
  induction k with
  | zero => simp [rounds]
  | succ k ih =>
    simp only [rounds, List.mem_append, ih, List.mem_cons, reduceCtorEq, Event.request.injEq,
      List.not_mem_nil, or_false, false_or]
    grind

theorem mem_upTo : .request j sent ∈ upTo req k ↔ j ≤ k ∧ sent = req.left j := by
  simp only [upTo, List.mem_append, mem_rounds, List.mem_cons, reduceCtorEq, Event.request.injEq,
    List.not_mem_nil, or_false, false_or]
  grind

theorem count_close_rounds : (rounds req k).count (.close j) = if j < k then 1 else 0 := by
  induction k with
  | zero => rfl
  | succ k ih =>
    simp only [rounds, List.count_append, ih, List.count_cons, List.count_nil, beq_iff_eq,
      reduceCtorEq, if_false, Event.close.injEq]
    grind

theorem count_close_upTo : (upTo req k).count (.close j) = if j < k then 1 else 0 := by
  simp [upTo, List.count_append, count_close_rounds]

end Rounds

/-- What a caller and the limiter may rely on. -/
structure Orderly (t : RateLimitedTransport) (env : Env) (now : Nat) (out : Outcome) : Prop where
  bounded : out.events.countP Event.isRequest ≤ t.maxRetries + 1
  paced : Paced out.events
  /-- The first response that is not a 429 is returned, or the last one, with its body open. -/
  returned : ∀ k resp, out.result = .ok (k, resp) → env.answer k = .ok resp ∧
    Requested out.events k ∧ (∀ j, j < k → env.Limited j) ∧
    (resp.statusCode ≠ 429 ∨ k = t.maxRetries) ∧ .close k ∉ out.events
  /-- Every other response is a 429 that is thrown away once. -/
  closed : ∀ j resp, Requested out.events j → env.answer j = .ok resp →
    (∀ r, out.result ≠ .ok (j, r)) → resp.statusCode = 429 ∧ out.events.count (.close j) = 1
  /-- An error of the inner transport is returned, and nothing follows its request. -/
  failed : ∀ k text, Requested out.events k → env.answer k = .error text →
    out.result = .error (.inner text) ∧ ∀ j, Requested out.events j → j ≤ k
  /-- No request is sent once the context is cancelled. -/
  timely : Timely env out.log
  /-- A context that outlives the last wait changes nothing. -/
  undisturbed : ∀ k begun, k ≤ t.maxRetries → env.ready now k = some begun → env.Final t k →
    (∀ c, env.done = some c → env.over k begun < c) → out.result = env.attempt k
  /-- A call is given up only in a wait, or the pause before it, that the cancellation comes in
  time for, and after the requests before it. -/
  stopped : out.result = .error .done → ∃ k begun c, k ≤ t.maxRetries ∧
    env.ready now k = some begun ∧ env.done = some c ∧ c ≤ env.over k begun ∧
    ∀ j, Requested out.events j ↔ j < k
  /-- There is no other reason to return without a response. -/
  erred : ∀ e, out.result = .error e → e = .done ∨
    ∃ k begun, k ≤ t.maxRetries ∧ env.ready now k = some begun ∧ env.attempt k = .error e ∧
      ∀ text, e = .inner text → Requested out.events k

theorem requested_rounds : Requested (rounds req k) j ↔ j < k := by
  simp [Requested, mem_rounds]

theorem requested_upTo : Requested (upTo req k) j ↔ j ≤ k := by
  simp [Requested, mem_upTo]

section Endings
variable {t : RateLimitedTransport} {env : Env} {req : Request} {resp : Response}
  {events : List Event} {result : Except Error (Nat × Response)} {now : Nat}

theorem Env.Limited.status (h : env.Limited k) (hanswer : env.answer k = .ok resp) :
    resp.statusCode = 429 := by
  obtain ⟨resp', hresp, hstatus⟩ := h
  cases hanswer.symm.trans hresp
  exact hstatus

theorem Env.Limited.not_error (h : env.Limited k) : env.answer k ≠ .error text := by
  obtain ⟨resp, hresp, _⟩ := h
  simp [hresp]

/-- No wait begins after the final one. -/
theorem Env.Final.le (h : env.Final t j) (hready : env.ready now k = some begun)
    (hk : k ≤ t.maxRetries) : k ≤ j := by
  by_contra hlt
  obtain ⟨_, delay, _, hdelay, _, hlimited⟩ := ready_before hready (Nat.lt_of_not_le hlt)
  rcases h with rfl | ⟨text, htext⟩ | hno
  · exact hlt hk
  · cases hdelay.symm.trans htext
  · exact hno hlimited

namespace Ending

/-- A call that is not given up ends with what comes of its final wait. -/
theorem of_final (h : Ending t env req now result events) :
    (∃ k begun c, k ≤ t.maxRetries ∧ env.ready now k = some begun ∧ env.done = some c ∧
      c ≤ env.over k begun) ∨
    ∃ k begun, k ≤ t.maxRetries ∧ env.ready now k = some begun ∧ env.Final t k ∧
      result = env.attempt k := by
  cases h with
  | cancelled hk hready hdone hover => exact .inl ⟨_, _, _, hk, hready, hdone, hover⟩
  | refused hk hready hreserve =>
    exact .inr ⟨_, _, hk, hready, .inr (.inl ⟨_, hreserve⟩), by simp [Env.attempt, hreserve]⟩
  | failed hk hready hreserve hanswer =>
    exact .inr ⟨_, _, hk, hready, .inr (.inr (fun hlimited => hlimited.not_error hanswer)),
      by simp [Env.attempt, hreserve, hanswer]⟩
  | returned hk hready hreserve hanswer hlast =>
    refine .inr ⟨_, _, hk, hready, ?_, by simp [Env.attempt, hreserve, hanswer]⟩
    rcases hlast with hstatus | hmax
    · exact .inr (.inr (fun hlimited => hstatus (hlimited.status hanswer)))
    · exact .inl hmax

theorem undisturbed (h : Ending t env req now result events) (hk : k ≤ t.maxRetries)
    (hready : env.ready now k = some begun) (hfinal : env.Final t k)
    (hlate : ∀ c, env.done = some c → env.over k begun < c) : result = env.attempt k := by
  rcases h.of_final with
    ⟨j, _, c, hj, hready', hc, hover⟩ | ⟨j, _, hj, hready', hfinal', hresult⟩
  · -- the wait it was given up in was over before the context was
    have hlt := hlate c hc
    rcases Nat.lt_or_eq_of_le (hfinal.le hready' hj) with hjk | rfl
    · obtain ⟨_, _, hsame, _, hle, _⟩ := ready_before hready hjk
      cases hready'.symm.trans hsame
      have := le_over env k begun
      omega
    · cases hready'.symm.trans hready
      omega
  · obtain rfl := Nat.le_antisymm (hfinal.le hready' hj) (hfinal'.le hready hk)
    exact hresult

theorem bounded (h : Ending t env req now result events) :
    events.countP Event.isRequest ≤ t.maxRetries + 1 := by
  cases h with
  | cancelled hk | refused hk => rw [countP_rounds]; omega
  | failed hk | returned hk => rw [countP_upTo]; omega

theorem paced (h : Ending t env req now result events) : Paced events := by
  cases h with
  | cancelled | refused => exact paced_rounds _
  | failed | returned => exact paced_upTo _

theorem returned_spec (h : Ending t env req now (.ok (k, resp)) events) :
    env.answer k = .ok resp ∧ Requested events k ∧ (∀ j, j < k → env.Limited j) ∧
      (resp.statusCode ≠ 429 ∨ k = t.maxRetries) ∧ .close k ∉ events := by
  cases h with
  | returned hk hready hreserve hanswer hlast =>
    refine ⟨hanswer, requested_upTo.mpr (Nat.le_refl k), limited_of_ready hready, hlast, ?_⟩
    rw [← List.count_eq_zero, count_close_upTo, if_neg (Nat.lt_irrefl k)]

theorem closed (h : Ending t env req now result events) (hrequest : Requested events j)
    (hresp : env.answer j = .ok resp) (hother : ∀ r, result ≠ .ok (j, r)) :
    resp.statusCode = 429 ∧ events.count (.close j) = 1 := by
  cases h with
  | cancelled _ hready | refused _ hready =>
    have hj := requested_rounds.mp hrequest
    exact ⟨(limited_of_ready hready j hj).status hresp, by rw [count_close_rounds, if_pos hj]⟩
  | failed _ hready _ hanswer =>
    rcases Nat.lt_or_eq_of_le (requested_upTo.mp hrequest) with hj | rfl
    · exact ⟨(limited_of_ready hready j hj).status hresp, by rw [count_close_upTo, if_pos hj]⟩
    · cases hanswer.symm.trans hresp
  | returned _ hready =>
    rcases Nat.lt_or_eq_of_le (requested_upTo.mp hrequest) with hj | rfl
    · exact ⟨(limited_of_ready hready j hj).status hresp, by rw [count_close_upTo, if_pos hj]⟩
    · exact absurd rfl (hother _)

theorem failed_spec (h : Ending t env req now result events) (hrequest : Requested events k)
    (herror : env.answer k = .error text) :
    result = .error (.inner text) ∧ ∀ j, Requested events j → j ≤ k := by
  cases h with
  | cancelled _ hready | refused _ hready =>
    exact absurd herror (limited_of_ready hready k (requested_rounds.mp hrequest)).not_error
  | failed _ hready _ hanswer =>
    rcases Nat.lt_or_eq_of_le (requested_upTo.mp hrequest) with hlt | rfl
    · exact absurd herror (limited_of_ready hready k hlt).not_error
    · cases hanswer.symm.trans herror
      exact ⟨rfl, fun j hj => requested_upTo.mp hj⟩
  | returned _ hready _ hanswer =>
    rcases Nat.lt_or_eq_of_le (requested_upTo.mp hrequest) with hlt | rfl
    · exact absurd herror (limited_of_ready hready k hlt).not_error
    · cases hanswer.symm.trans herror

theorem stopped (h : Ending t env req now (.error .done) events) :
    ∃ k begun c, k ≤ t.maxRetries ∧ env.ready now k = some begun ∧ env.done = some c ∧
      c ≤ env.over k begun ∧ ∀ j, Requested events j ↔ j < k := by
  cases h with
  | cancelled hk hready hdone hover =>
    exact ⟨_, _, _, hk, hready, hdone, hover, fun j => requested_rounds⟩

theorem erred (h : Ending t env req now (.error e) events) : e = .done ∨
    ∃ k begun, k ≤ t.maxRetries ∧ env.ready now k = some begun ∧ env.attempt k = .error e ∧
      ∀ text, e = .inner text → Requested events k := by
  cases h with
  | cancelled => exact .inl rfl
  | refused hk hready hreserve =>
    exact .inr ⟨_, _, hk, hready, by simp [Env.attempt, hreserve], fun _ he => by cases he⟩
  | failed hk hready hreserve hanswer =>
    exact .inr ⟨_, _, hk, hready, by simp [Env.attempt, hreserve, hanswer],
      fun _ _ => requested_upTo.mpr (Nat.le_refl _)⟩

/-- A later request follows the earlier ones, and transmits what they left. -/
theorem sent (h : Ending t env req now result events) (hk : .request k s ∈ events) :
    s = req.left k ∧ ∀ j, j ≤ k → Requested events j := by
  cases h with
  | cancelled | refused =>
    obtain ⟨hlt, hs⟩ := mem_rounds.mp hk
    exact ⟨hs, fun j hj => requested_rounds.mpr (Nat.lt_of_le_of_lt hj hlt)⟩
  | failed | returned =>
    obtain ⟨hle, hs⟩ := mem_upTo.mp hk
    exact ⟨hs, fun j hj => requested_upTo.mpr (Nat.le_trans hj hle)⟩

end Ending

end Endings

/-- The retry loop, for every sequence of answers, every header and every time at which the context
is cancelled. -/
theorem roundTrip_orderly (t : RateLimitedTransport) (env : Env) (req : Request) (now : Nat) :
    Orderly t env now (t.roundTrip env req now) := by
  have h := roundTrip_ending t env req now
  exact {
    bounded := h.bounded
    paced := h.paced
    returned := by
      intro k resp hresult
      rw [hresult] at h
      exact h.returned_spec
    closed := fun j resp => h.closed
    failed := fun k text => h.failed_spec
    timely := roundTrip_timely t env req now
    undisturbed := fun k begun => h.undisturbed
    stopped := by
      intro hresult
      rw [hresult] at h
      exact h.stopped
    erred := by
      intro e hresult
      rw [hresult] at h
      exact h.erred }

/-- Every request of the call transmits the whole request. -/
def SameRequest (req : Request) (out : Outcome) : Prop :=
  ∀ k sent, .request k sent ∈ out.events → sent = req

/-- The first request is answered with 429, a retry is left, and it gets its token. -/
def Retried (t : RateLimitedTransport) (env : Env) (now : Nat) : Prop :=
  0 < t.maxRetries ∧ ∃ begun resp resumed again, env.wait 0 now = .ok begun ∧
    env.answer 0 = .ok resp ∧ resp.statusCode = 429 ∧
    env.pause 0 resp (begun + env.latency 0) = some resumed ∧ env.wait 1 resumed = .ok again

theorem mem_loop {env : Env} {req : Request} {attempt now : Nat} {resp : Response} {log : Log}
    (h : x ∈ log) : x ∈ (env.loop n attempt resp req now log).log :=
  loop_log (P := fun log => x ∈ log) (fun _ _ _ h => List.mem_append_left _ h)
    (fun _ _ _ _ _ h _ => List.mem_append_left _ h) h

/-- The first round of the loop decides whether there is a second request. -/
theorem requested_one_loop {env : Env} {req : Request} {now : Nat} {resp : Response}
    {sent : Request} :
    Requested (env.loop n 0 resp req now [(m, .token), (m, .request 0 sent)]).events 1 ↔
      0 < n ∧ resp.statusCode = 429 ∧ ∃ resumed again, env.pause 0 resp now = some resumed ∧
        env.wait 1 resumed = .ok again := by
  cases n with
  | zero => simp [Env.loop, Requested, Outcome.events]
  | succ n =>
    by_cases hstatus : resp.statusCode = 429
    · simp only [Env.loop, hstatus, ne_eq, not_true, if_false]
      cases hpause : env.pause 0 resp now with
      | none => simp [Requested, Outcome.events]
      | some resumed =>
        rcases send_cases env (0 + 1) req resumed
            ([(m, .token), (m, .request 0 sent)] ++ [(now, .close 0)])
          with ⟨e, hsend, hwait⟩ | ⟨after, hwait, ⟨text, _, hsend⟩ | ⟨resp', _, hsend⟩⟩
        · simp only [hsend]
          simp [Requested, Outcome.events, hwait]
        · simp only [hsend]
          simp [Requested, Outcome.events, hwait]
        · have hmem : (after, .request 1 req) ∈
              (env.loop n (0 + 1) resp' req.consumed (after + env.latency (0 + 1))
                (([(m, .token), (m, .request 0 sent)] ++ [(now, .close 0)]) ++
                  [(after, .token), (after, .request (0 + 1) req)])).log :=
            mem_loop (by simp)
          simp only [hsend]
          refine iff_of_true ⟨req, List.mem_map.mpr ⟨_, hmem, rfl⟩⟩ ?_
          exact ⟨Nat.succ_pos n, trivial, resumed, after, rfl, hwait⟩
    · simp [Env.loop, hstatus, Requested, Outcome.events]

theorem requested_one_iff (t : RateLimitedTransport) (env : Env) (req : Request) (now : Nat) :
    Requested (t.roundTrip env req now).events 1 ↔ Retried t env now := by
  simp only [RateLimitedTransport.roundTrip, Retried]
  rcases send_cases env 0 req now [] with
    ⟨e, hsend, hwait⟩ | ⟨after, hwait, ⟨text, htext, hsend⟩ | ⟨resp, hresp, hsend⟩⟩
  · simp [hsend, hwait, Requested, Outcome.events]
  · simp [hsend, hwait, htext, Requested, Outcome.events]
  · simp only [hsend, List.nil_append, requested_one_loop, hwait, hresp, Except.ok.injEq]
    simp

/-- A request is repeated whole just if it has no body or is not repeated. -/
theorem retries_repeat_iff (t : RateLimitedTransport) (env : Env) (req : Request) (now : Nat) :
    SameRequest req (t.roundTrip env req now) ↔ req.body = "" ∨ ¬ Retried t env now := by
  have hending := roundTrip_ending t env req now
  rw [← requested_one_iff t env req now]
  constructor
  · intro hsame
    by_contra hnot
    obtain ⟨hbody, hone⟩ := not_or.mp hnot
    obtain ⟨sent, hsent⟩ := not_not.mp hone
    have hreq := (hending.sent hsent).1.symm.trans (hsame 1 sent hsent)
    exact hbody (congrArg Request.body hreq).symm
  · rintro (hbody | hone) k sent hsent
    · rw [(hending.sent hsent).1]
      cases k with
      | zero => rfl
      | succ k => simp only [Request.left, Request.consumed, ← hbody]
    · cases k with
      | zero => exact (hending.sent hsent).1
      | succ k => exact absurd ((hending.sent hsent).2 1 (by omega)) hone

/-- The request of `login`. -/
def loginRequest (baseURL apiKey : String) : Request where
  method := "POST"
  url := baseURL ++ "/v4/login"
  header := [("Content-Type", "application/json")]
  body := "\x7b\"apikey\":" ++ Json.quote apiKey ++ "\x7d"

theorem loginRequest_body_ne (baseURL apiKey : String) : (loginRequest baseURL apiKey).body ≠ "" := by
  intro h
  have hlength := congrArg String.length h
  simp [loginRequest, String.length_append] at hlength

/-- One 429, then 200. -/
def limitedOnce : Env where
  done := none
  reserve _ := .ok 0
  answer
    | 0 => .ok ⟨429, "1"⟩
    | _ => .ok ⟨200, ""⟩
  latency _ := 0
  waitTie _ := true
  pauseTie _ := true

/-- The login is retried without its key. -/
theorem login_retried_without_key :
    ¬ SameRequest (loginRequest "https://api4.thetvdb.com" "key")
      ((newRateLimitedTransport ⟨5, 10, 3⟩).roundTrip limitedOnce
        (loginRequest "https://api4.thetvdb.com" "key") 0) := by
  intro hsame
  have hsent : .request 1 (loginRequest "https://api4.thetvdb.com" "key").consumed ∈
      ((newRateLimitedTransport ⟨5, 10, 3⟩).roundTrip limitedOnce
        (loginRequest "https://api4.thetvdb.com" "key") 0).events := by
    decide
  have hbody := congrArg Request.body (hsame 1 _ hsent)
  exact loginRequest_body_ne _ _ hbody.symm

end Sonarr.Tvdb.RateLimit
