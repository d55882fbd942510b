import Sonarr.Lib.Machine
import Sonarr.Lib.StableSort
import Sonarr.Lib.Text

namespace Sonarr.Api.LimiterMap
open Lib Lib.Text

structure Request where
  xForwardedFor : String
  xRealIP : String
  remoteAddr : String

/-- The host of `net.SplitHostPort`; none on its errors. -/
def splitHost (hostport : List Char) : Option (List Char) :=
  match hostport.reverse.span (· != ':') with
  | (_, []) => none
  | (port, _ :: before) =>
    match hostport with
    | '[' :: rest =>
      match rest.span (· != ']') with
      | (_, []) => none
      | (host, _ :: tail) =>
        if tail = ':' :: port.reverse ∧ '[' ∉ rest ∧ ']' ∉ tail then some host else none
    | _ =>
      if ':' ∈ before ∨ '[' ∈ hostport ∨ ']' ∈ hostport then none else some before.reverse

def clientIP (r : Request) : String :=
  if r.xForwardedFor ≠ "" then
    trimSpace (String.ofList (r.xForwardedFor.toList.takeWhile (· != ',')))
  else if r.xRealIP ≠ "" then r.xRealIP
  else match splitHost r.remoteAddr.toList with
    | none => r.remoteAddr
    | some host => String.ofList host

/-- `rateLimiterEntry` with its key; limiters are numbered as they are made. -/
structure Entry where
  ip : String
  limiter : Nat
  lastSeen : Nat
  deriving DecidableEq, Repr

structure IPRateLimiter where
  limiters : List Entry
  maxIPs : Nat
  made : Nat
  unique : (limiters.map Entry.ip).Nodup

def newIPRateLimiter : IPRateLimiter := ⟨[], 10000, 0, List.nodup_nil⟩

/-- The order in which a map is ranged over: any order. -/
abbrev Iteration := Arrangement (fun _ _ : Entry => false)

/-- One turn of the loop of `evictOldest`; no address yet is the empty one. -/
def older (oldest : String × Nat) (e : Entry) : String × Nat :=
  if oldest.1 = "" ∨ e.lastSeen < oldest.2 then (e.ip, e.lastSeen) else oldest

namespace IPRateLimiter
variable (l : IPRateLimiter)

def delete (ip : String) : IPRateLimiter where
  limiters := l.limiters.filter (fun e => e.ip ≠ ip)
  maxIPs := l.maxIPs
  made := l.made
  unique := l.unique.sublist (List.filter_sublist.map _)

def evictOldest (order : Iteration) : IPRateLimiter :=
  let oldestIP := ((order.run l.limiters).foldl older ("", 0)).1
  if oldestIP ≠ "" then l.delete oldestIP else l

def touch (ip : String) (now : Nat) : IPRateLimiter where
  limiters := l.limiters.map (fun e => if e.ip = ip then { e with lastSeen := now } else e)
  maxIPs := l.maxIPs
  made := l.made
  unique := by
    have hkeys : (Entry.ip ∘ fun e => if e.ip = ip then { e with lastSeen := now } else e) =
        Entry.ip := by
      funext e
      simp only [Function.comp_apply]
      split <;> rfl
    rw [List.map_map, hkeys]
    exact l.unique

/-- Stores a new limiter under its address. -/
def put (ip : String) (now : Nat) : IPRateLimiter where
  limiters := l.limiters.filter (fun e => e.ip ≠ ip) ++ [⟨ip, l.made, now⟩]
  maxIPs := l.maxIPs
  made := l.made + 1
  unique := by
    rw [List.map_append, List.nodup_append]
    refine ⟨l.unique.sublist (List.filter_sublist.map _), by simp, ?_⟩
    intro a ha b hb
    obtain ⟨e, he, rfl⟩ := List.mem_map.mp ha
    obtain rfl : b = ip := by simpa using hb
    simpa using (List.mem_filter.mp he).2

/-- The limiter of an address, and the map that is left. -/
def getLimiter (order : Iteration) (now : Nat) (ip : String) : Nat × IPRateLimiter :=
  match l.limiters.find? (fun e => e.ip = ip) with
  | some e => (e.limiter, l.touch ip now)
  | none =>
    let l := if l.maxIPs ≤ l.limiters.length then l.evictOldest order else l
    (l.made, l.put ip now)

end IPRateLimiter

structure State where
  limiter : IPRateLimiter
  clock : Nat

/-- A request, how long after the last one it comes, and the order in which the map
is ranged over if an entry has to go. -/
structure Arrival where
  request : Request
  gap : Nat
  order : Iteration

def answer (s : State) (a : Arrival) : Nat × IPRateLimiter :=
  s.limiter.getLimiter a.order (s.clock + a.gap + 1) (clientIP a.request)

def step (s : State) (a : Arrival) : Option State :=
  some ⟨(answer s a).2, s.clock + a.gap + 1⟩

def init : State := ⟨newIPRateLimiter, 0⟩

section Entries
variable {l : IPRateLimiter}

theorem entry_unique {e e' : Entry} (he : e ∈ l.limiters) (he' : e' ∈ l.limiters)
    (hip : e.ip = e'.ip) : e = e' :=
  List.inj_on_of_nodup_map l.unique he he' hip

theorem mem_delete : e ∈ (l.delete ip).limiters ↔ e ∈ l.limiters ∧ e.ip ≠ ip := by
  simp [IPRateLimiter.delete]

theorem mem_touch : e ∈ (l.touch ip now).limiters ↔
    ∃ x ∈ l.limiters, e = if x.ip = ip then { x with lastSeen := now } else x := by
  simp only [IPRateLimiter.touch, List.mem_map]
  exact exists_congr fun x => and_congr_right fun _ => eq_comm

theorem mem_put : e ∈ (l.put ip now).limiters ↔
    (e ∈ l.limiters ∧ e.ip ≠ ip) ∨ e = ⟨ip, l.made, now⟩ := by
  simp [IPRateLimiter.put]

theorem getLimiter_seen (order : Iteration) (now : Nat) (he : e ∈ l.limiters) :
    l.getLimiter order now e.ip = (e.limiter, l.touch e.ip now) := by
  unfold IPRateLimiter.getLimiter
  cases hf : l.limiters.find? (fun x => x.ip = e.ip) with
  | none => simpa using List.find?_eq_none.mp hf e he
  | some x =>
    have hx : x.ip = e.ip := by simpa using List.find?_some hf
    rw [entry_unique (List.mem_of_find?_eq_some hf) he hx]

/-- The map after room was made for one more entry. -/
def IPRateLimiter.room (l : IPRateLimiter) (order : Iteration) : IPRateLimiter :=
  if l.maxIPs ≤ l.limiters.length then l.evictOldest order else l

theorem getLimiter_new (order : Iteration) (now : Nat) (h : ∀ e ∈ l.limiters, e.ip ≠ ip) :
    l.getLimiter order now ip = ((l.room order).made, (l.room order).put ip now) := by
  have hf : l.limiters.find? (fun x => x.ip = ip) = none := by
    rw [List.find?_eq_none]
    intro e he
    simpa using h e he
  unfold IPRateLimiter.getLimiter
  rw [hf]
  rfl

theorem mem_room (h : e ∈ (l.room order).limiters) : e ∈ l.limiters := by
  unfold IPRateLimiter.room IPRateLimiter.evictOldest at h
  dsimp only at h
  split at h
  · split at h
    · exact (mem_delete.mp h).1
    · exact h
  · exact h

end Entries

section Oldest

/-- With an address in hand, the loop keeps the least recent one it meets. -/
theorem foldl_older {l : List Entry} (hnamed : ∀ e ∈ l, e.ip ≠ "") {ip : String} (hip : ip ≠ "")
    (time : Nat) :
    (l.foldl older (ip, time)).2 ≤ time ∧ (∀ e ∈ l, (l.foldl older (ip, time)).2 ≤ e.lastSeen) ∧
      (l.foldl older (ip, time) = (ip, time) ∨
        ∃ e ∈ l, l.foldl older (ip, time) = (e.ip, e.lastSeen)) := by
  induction l generalizing ip time with
  | nil => simp
  | cons e l ih =>
    rw [List.forall_mem_cons] at hnamed
    rw [List.foldl_cons, older]
    by_cases hlt : e.lastSeen < time
    · rw [if_pos (.inr hlt)]
      obtain ⟨hle, hall, hfrom⟩ := ih hnamed.2 hnamed.1 e.lastSeen
      refine ⟨by omega, List.forall_mem_cons.mpr ⟨hle, hall⟩, .inr ?_⟩
      rcases hfrom with hsame | ⟨x, hx, hv⟩
      · exact ⟨e, List.mem_cons_self, hsame⟩
      · exact ⟨x, List.mem_cons_of_mem _ hx, hv⟩
    · rw [if_neg (by simp [hip, hlt])]
      obtain ⟨hle, hall, hfrom⟩ := ih hnamed.2 hip time
      refine ⟨hle, List.forall_mem_cons.mpr ⟨by omega, hall⟩, ?_⟩
      rcases hfrom with hsame | ⟨x, hx, hv⟩
      · exact .inl hsame
      · exact .inr ⟨x, List.mem_cons_of_mem _ hx, hv⟩

theorem foldl_older_start {l : List Entry} (hnamed : ∀ e ∈ l, e.ip ≠ "") (hne : l ≠ []) :
    ∃ e ∈ l, l.foldl older ("", 0) = (e.ip, e.lastSeen) ∧ ∀ x ∈ l, e.lastSeen ≤ x.lastSeen := by
  cases l with
  | nil => exact absurd rfl hne
  | cons e l =>
    rw [List.forall_mem_cons] at hnamed
    obtain ⟨hle, hall, hfrom⟩ := foldl_older hnamed.2 hnamed.1 e.lastSeen
    rw [List.foldl_cons, older, if_pos (.inl rfl)]
    rcases hfrom with hsame | ⟨x, hx, hv⟩
    · rw [hsame] at hall ⊢
      exact ⟨e, List.mem_cons_self, rfl, List.forall_mem_cons.mpr ⟨Nat.le_refl _, hall⟩⟩
    · rw [hv] at hle hall ⊢
      exact ⟨x, List.mem_cons_of_mem _ hx, rfl, List.forall_mem_cons.mpr ⟨hle, hall⟩⟩

/-- Without an empty address, the entry that goes is a least recent one. -/
theorem evictOldest_spec {l : IPRateLimiter} (hnamed : ∀ e ∈ l.limiters, e.ip ≠ "")
    (hne : l.limiters ≠ []) (order : Iteration) :
    ∃ e ∈ l.limiters, l.evictOldest order = l.delete e.ip ∧
      ∀ x ∈ l.limiters, e.lastSeen ≤ x.lastSeen := by
  have hmem : ∀ e, e ∈ order.run l.limiters ↔ e ∈ l.limiters :=
    fun e => (order.perm l.limiters).mem_iff
  have hrun : order.run l.limiters ≠ [] := by
    intro hnil
    have := (order.perm l.limiters).length_eq
    rw [hnil] at this
    exact hne (List.length_eq_zero_iff.mp this.symm)
  obtain ⟨e, he, hip, hle⟩ := foldl_older_start (fun e he => hnamed e ((hmem e).mp he)) hrun
  refine ⟨e, (hmem e).mp he, ?_, fun x hx => hle x ((hmem x).mpr hx)⟩
  unfold IPRateLimiter.evictOldest
  dsimp only
  rw [hip, if_pos (hnamed e ((hmem e).mp he))]

end Oldest

/-- An entry that a step takes out was seen less recently than every other one. -/
def EvictsOldest (s t : State) : Prop :=
  ∀ e ∈ s.limiter.limiters, (∀ x ∈ t.limiter.limiters, x.ip ≠ e.ip) →
    ∀ x ∈ s.limiter.limiters, x ≠ e → e.lastSeen < x.lastSeen

/-- A client with an entry is answered with its limiter, and entries keep their limiters. -/
def KeepsLimiters (s : State) (a : Arrival) (t : State) : Prop :=
  ∀ e ∈ s.limiter.limiters, (clientIP a.request = e.ip → (answer s a).1 = e.limiter) ∧
    ∀ x ∈ t.limiter.limiters, x.ip = e.ip → x.limiter = e.limiter

/-- The clients asked so far have addresses, no two at one time and none in the future. -/
structure Inv (s : State) : Prop where
  named : ∀ e ∈ s.limiter.limiters, e.ip ≠ ""
  past : ∀ e ∈ s.limiter.limiters, e.lastSeen ≤ s.clock
  apart : ∀ e ∈ s.limiter.limiters, ∀ x ∈ s.limiter.limiters, e.lastSeen = x.lastSeen → e = x
  positive : 0 < s.limiter.maxIPs
  bounded : s.limiter.limiters.length ≤ s.limiter.maxIPs

theorem step_cases (h : step s a = some t) :
    (∃ e ∈ s.limiter.limiters, clientIP a.request = e.ip ∧ (answer s a).1 = e.limiter ∧
      t = ⟨s.limiter.touch e.ip (s.clock + a.gap + 1), s.clock + a.gap + 1⟩) ∨
    (∀ e ∈ s.limiter.limiters, e.ip ≠ clientIP a.request) ∧
      t = ⟨(s.limiter.room a.order).put (clientIP a.request) (s.clock + a.gap + 1),
        s.clock + a.gap + 1⟩ := by
  unfold step at h
  rw [Option.some.injEq] at h
  by_cases hseen : ∃ e ∈ s.limiter.limiters, e.ip = clientIP a.request
  · obtain ⟨e, he, hip⟩ := hseen
    have hanswer : answer s a = (e.limiter, s.limiter.touch e.ip (s.clock + a.gap + 1)) := by
      unfold answer
      rw [← hip, getLimiter_seen _ _ he]
    exact .inl ⟨e, he, hip.symm, by rw [hanswer], by rw [← h, hanswer]⟩
  · have hnew : ∀ e ∈ s.limiter.limiters, e.ip ≠ clientIP a.request :=
      fun e he hip => hseen ⟨e, he, hip⟩
    refine .inr ⟨hnew, ?_⟩
    rw [← h, answer, getLimiter_new _ _ hnew]

/-- Under the invariant, making room leaves a place free and takes out a least recent entry only. -/
theorem room_spec (hs : Inv s) (order : Iteration) :
    (s.limiter.room order).limiters.length < s.limiter.maxIPs ∧
      ∀ e ∈ s.limiter.limiters, e ∈ (s.limiter.room order).limiters ∨
        ∀ x ∈ s.limiter.limiters, e.lastSeen ≤ x.lastSeen := by
  unfold IPRateLimiter.room
  split
  · rename_i hfull
    have hpos := hs.positive
    have hne : s.limiter.limiters ≠ [] := by
      intro hnil
      rw [hnil, List.length_nil] at hfull
      omega
    obtain ⟨old, hold, hdel, hleast⟩ := evictOldest_spec hs.named hne order
    rw [hdel]
    constructor
    · have hlt : (s.limiter.delete old.ip).limiters.length < s.limiter.limiters.length := by
        apply List.length_filter_lt_length_iff_exists.mpr
        exact ⟨old, hold, by simp⟩
      exact Nat.lt_of_lt_of_le hlt hs.bounded
    · intro e he
      by_cases hip : e.ip = old.ip
      · rw [entry_unique he hold hip]
        exact .inr hleast
      · exact .inl (mem_delete.mpr ⟨he, hip⟩)
  · rename_i hfree
    exact ⟨by omega, fun e he => .inl he⟩

theorem step_evictsOldest (hs : Inv s) (h : step s a = some t) : EvictsOldest s t := by
  intro e he hgone
  rcases step_cases h with ⟨seen, _, _, _, rfl⟩ | ⟨hnew, rfl⟩
  · -- Touching an entry leaves every address in the map.
    exfalso
    refine hgone _ (mem_touch.mpr ⟨e, he, rfl⟩) ?_
    split <;> rfl
  · intro x hx hne
    rcases (room_spec hs a.order).2 e he with hstay | hleast
    · exact absurd rfl (hgone e (mem_put.mpr (.inl ⟨hstay, hnew e he⟩)))
    · have hle := hleast x hx
      have hdiff : e.lastSeen ≠ x.lastSeen := fun heq => hne (hs.apart e he x hx heq).symm
      omega

theorem step_keepsLimiters (h : step s a = some t) : KeepsLimiters s a t := by
  intro e he
  rcases step_cases h with ⟨seen, hseen, hip, hanswer, rfl⟩ | ⟨hnew, rfl⟩
  · refine ⟨fun heq => ?_, fun x hx hxe => ?_⟩
    · rw [hanswer, entry_unique hseen he (hip.symm.trans heq)]
    · obtain ⟨y, hy, rfl⟩ := mem_touch.mp hx
      have hye : y.ip = e.ip := by
        rw [← hxe]
        split <;> rfl
      rw [entry_unique hy he hye]
      split <;> rfl
  · refine ⟨fun heq => absurd heq.symm (hnew e he), fun x hx hxe => ?_⟩
    rcases mem_put.mp hx with ⟨hx, _⟩ | rfl
    · rw [entry_unique (mem_room hx) he hxe]
    · exact absurd hxe.symm (hnew e he)

theorem touch_inv (hs : Inv s) (hseen : seen ∈ s.limiter.limiters) (hnow : s.clock < now) :
    Inv ⟨s.limiter.touch seen.ip now, now⟩ where
  named e he := by
    obtain ⟨x, hx, rfl⟩ := mem_touch.mp he
    have := hs.named x hx
    split <;> exact this
  past e he := by
    obtain ⟨x, hx, rfl⟩ := mem_touch.mp he
    have hpast := hs.past x hx
    show _ ≤ now
    split
    · exact Nat.le_refl now
    · omega
  apart e he e' he' heq := by
    obtain ⟨x, hx, rfl⟩ := mem_touch.mp he
    obtain ⟨y, hy, rfl⟩ := mem_touch.mp he'
    have hxpast := hs.past x hx
    have hypast := hs.past y hy
    by_cases hxi : x.ip = seen.ip <;> by_cases hyi : y.ip = seen.ip
    · rw [entry_unique hx hseen hxi, entry_unique hy hseen hyi]
    · simp only [hxi, hyi, if_true, if_false] at heq
      omega
    · simp only [hxi, hyi, if_true, if_false] at heq
      omega
    · simp only [hxi, hyi, if_false] at heq ⊢
      exact hs.apart x hx y hy heq
  positive := hs.positive
  bounded := by
    simp only [IPRateLimiter.touch, List.length_map]
    exact hs.bounded

theorem room_maxIPs (l : IPRateLimiter) (order : Iteration) : (l.room order).maxIPs = l.maxIPs := by
  unfold IPRateLimiter.room IPRateLimiter.evictOldest
  dsimp only
  split
  · split <;> rfl
  · rfl

theorem put_inv (hs : Inv s) (hip : ip ≠ "") (order : Iteration) (hnow : s.clock < now) :
    Inv ⟨(s.limiter.room order).put ip now, now⟩ where
  named e he := by
    rcases mem_put.mp he with ⟨he, _⟩ | rfl
    · exact hs.named e (mem_room he)
    · exact hip
  past e he := by
    show _ ≤ now
    rcases mem_put.mp he with ⟨he, _⟩ | rfl
    · have := hs.past e (mem_room he)
      omega
    · exact Nat.le_refl now
  apart e he x hx heq := by
    rcases mem_put.mp he with ⟨he, _⟩ | rfl <;> rcases mem_put.mp hx with ⟨hx, _⟩ | rfl
    · exact hs.apart e (mem_room he) x (mem_room hx) heq
    · have hpast := hs.past e (mem_room he)
      dsimp only at heq
      omega
    · have hpast := hs.past x (mem_room hx)
      dsimp only at heq
      omega
    · rfl
  positive := by
    show 0 < (s.limiter.room order).maxIPs
    rw [room_maxIPs]
    exact hs.positive
  bounded := by
    show _ ≤ (s.limiter.room order).maxIPs
    have hroom := (room_spec hs order).1
    have hfilter : ((s.limiter.room order).limiters.filter (fun e => e.ip ≠ ip)).length ≤
        (s.limiter.room order).limiters.length := List.length_filter_le ..
    rw [room_maxIPs]
    simp only [IPRateLimiter.put, List.length_append, List.length_singleton]
    omega

/-- The condition on requests: the client has an address. -/
def named (_ : State) (a : Arrival) : Prop := clientIP a.request ≠ ""

theorem step_inv (hip : named s a) (h : step s a = some t) (hs : Inv s) : Inv t := by
  rcases step_cases h with ⟨seen, hseen, _, _, rfl⟩ | ⟨_, rfl⟩
  · exact touch_inv hs hseen (by omega)
  · exact put_inv hs hip a.order (by omega)

theorem step_maxIPs (h : step s a = some t) : t.limiter.maxIPs = s.limiter.maxIPs := by
  rcases step_cases h with ⟨_, _, _, _, rfl⟩ | ⟨_, rfl⟩
  · rfl
  · exact room_maxIPs _ _

theorem init_inv : Inv init where
  named _ he := by cases he
  past _ he := by cases he
  apart _ he := by cases he
  positive := by decide
  bounded := by decide

section Overflow

/-- Ranging over the map backwards. -/
def backwards : Iteration where
  run := List.reverse
  perm := List.reverse_perm
  sorted _ := List.pairwise_of_forall (fun _ _ => rfl)

def key (n : Nat) : String := String.ofList (List.replicate (n + 1) 'a')

theorem key_injective (h : key m = key n) : m = n := by
  have hlen := congrArg (fun s => s.toList.length) h
  simpa [key] using hlen

theorem key_ne (n : Nat) : key n ≠ "" := by
  intro h
  have hlen := congrArg (fun s => s.toList.length) h
  simp [key] at hlen

/-- A client whose `X-Forwarded-For` starts with a comma. -/
def nobody : Arrival := ⟨⟨",", "", ""⟩, 0, backwards⟩

/-- The `n`-th client of the run. -/
def client (n : Nat) : Arrival := ⟨⟨"", key n, ""⟩, 0, backwards⟩

theorem clientIP_client (n : Nat) : clientIP (client n).request = key n := by
  simp [clientIP, client, key_ne]

/-- After a first client without an address and `n` others. -/
structure Filled (n : Nat) (s : State) : Prop where
  limiters : ∃ rest : List Entry, s.limiter.limiters = ⟨"", 0, 1⟩ :: rest ∧ rest.length = n ∧
    ∀ e ∈ rest, (∃ j < n, e.ip = key j) ∧ 1 < e.lastSeen
  maxIPs : s.limiter.maxIPs = 10000
  clock : 0 < s.clock

theorem filled_new (hs : Filled n s) : ∀ e ∈ s.limiter.limiters, e.ip ≠ key n := by
  obtain ⟨rest, hl, -, hrest⟩ := hs.limiters
  rw [hl, List.forall_mem_cons]
  refine ⟨fun h => key_ne n h.symm, fun e he h => ?_⟩
  obtain ⟨⟨j, hj, hip⟩, -⟩ := hrest e he
  exact absurd (key_injective (hip.symm.trans h)) (by omega)

/-- A client is put behind the others when its address makes nothing go. -/
theorem put_filled (hs : Filled n s) (hnow : 1 < now) :
    Filled (n + 1) ⟨s.limiter.put (key n) now, now⟩ where
  limiters := by
    have hfilter : s.limiter.limiters.filter (fun e => e.ip ≠ key n) = s.limiter.limiters :=
      List.filter_eq_self.mpr (fun e he => by simpa using filled_new hs e he)
    obtain ⟨rest, hl, hlen, hrest⟩ := hs.limiters
    refine ⟨rest ++ [⟨key n, s.limiter.made, now⟩], ?_, by simp [hlen], ?_⟩
    · show s.limiter.limiters.filter _ ++ _ = _
      rw [hfilter, hl]
      rfl
    · intro e he
      rcases List.mem_append.mp he with he | he
      · obtain ⟨⟨j, hj, hip⟩, htime⟩ := hrest e he
        exact ⟨⟨j, by omega, hip⟩, htime⟩
      · rw [List.mem_singleton.mp he]
        exact ⟨⟨n, by omega, rfl⟩, hnow⟩
  maxIPs := hs.maxIPs
  clock := by
    show 0 < now
    omega

theorem step_client (hs : Filled n s) :
    step s (client n) = some ⟨(s.limiter.room backwards).put (key n) (s.clock + 1), s.clock + 1⟩ := by
  unfold step answer
  rw [clientIP_client, getLimiter_new _ _ (filled_new hs)]
  rfl

theorem filled_step (hs : Filled n s) (hn : n + 1 < 10000) :
    ∃ t, step s (client n) = some t ∧ Filled (n + 1) t := by
  have hclock := hs.clock
  refine ⟨_, step_client hs, ?_⟩
  have hroom : s.limiter.room backwards = s.limiter := by
    obtain ⟨rest, hl, hlen, -⟩ := hs.limiters
    apply if_neg
    rw [hs.maxIPs, hl, List.length_cons]
    omega
  rw [hroom]
  exact put_filled hs (by omega)

theorem exists_filled (n : Nat) (hn : n < 10000) :
    ∃ as s, Path step Free init as s ∧ Filled n s := by
  induction n with
  | zero =>
    have hip : clientIP ⟨",", "", ""⟩ = "" := by decide
    have hstep : step init nobody = some ⟨newIPRateLimiter.put "" 1, 1⟩ := by
      unfold step answer nobody
      rw [hip, getLimiter_new _ _ (fun e he => by cases he)]
      rfl
    exact ⟨[nobody], _, .cons trivial hstep .nil, ⟨[], rfl, rfl, fun e he => by cases he⟩, rfl,
      by decide⟩
  | succ n ih =>
    obtain ⟨as, s, hrun, hs⟩ := ih (by omega)
    obtain ⟨t, hstep, ht⟩ := filled_step hs hn
    exact ⟨as ++ [client n], t, hrun.snoc trivial hstep, ht⟩

/-- With the empty address in the map as the oldest entry and met last, nothing goes. -/
theorem evictOldest_filled (hs : Filled n s) : s.limiter.evictOldest backwards = s.limiter := by
  obtain ⟨rest, hl, hlen, hrest⟩ := hs.limiters
  have hnamed : ∀ e ∈ rest.reverse, e.ip ≠ "" := by
    intro e he
    obtain ⟨⟨j, -, hip⟩, -⟩ := hrest e (List.mem_reverse.mp he)
    rw [hip]
    exact key_ne j
  have hlast : ((backwards.run s.limiter.limiters).foldl older ("", 0)).1 = "" := by
    rw [hl]
    show ((Entry.mk "" 0 1 :: rest).reverse.foldl older ("", 0)).1 = ""
    rw [List.reverse_cons, List.foldl_append, List.foldl_cons, List.foldl_nil]
    by_cases hne : rest.reverse = []
    · rw [hne]
      rfl
    · obtain ⟨e, he, hv, -⟩ := foldl_older_start hnamed hne
      have htime := (hrest e (List.mem_reverse.mp he)).2
      rw [hv, older, if_pos (.inr htime)]
  unfold IPRateLimiter.evictOldest
  dsimp only
  rw [hlast, if_neg (by simp)]

/-- A client without an address comes first; when the map is full its entry is the oldest
one, and the map grows beyond its bound. -/
theorem limiter_map_overflows :
    ∃ as s, Path step Free init as s ∧ s.limiter.limiters.length = 10001 := by
  obtain ⟨as, s, hrun, hs⟩ := exists_filled 9999 (by decide)
  refine ⟨as ++ [client 9999], _, hrun.snoc trivial (step_client hs), ?_⟩
  have hroom : s.limiter.room backwards = s.limiter := by
    obtain ⟨rest, hl, hlen, -⟩ := hs.limiters
    unfold IPRateLimiter.room
    rw [evictOldest_filled hs, ite_self]
  have hclock := hs.clock
  obtain ⟨rest, hl, hlen, -⟩ := (put_filled hs (show 1 < s.clock + 1 by omega)).limiters
  rw [hroom]
  show (s.limiter.put (key 9999) (s.clock + 1)).limiters.length = 10001
  rw [hl, List.length_cons, hlen]

end Overflow

/-- In a run whose clients all have addresses the map stays within its bound and is a
cache of the clients seen last. -/
theorem limiter_map_lru (h : Path step named init as s) :
    s.limiter.limiters.length ≤ 10000 ∧
      ∀ a t, step s a = some t → EvictsOldest s t ∧ KeepsLimiters s a t := by
  have hs : Inv s := h.invariant (fun _ _ _ hip hstep => step_inv hip hstep) init_inv
  have hmax : s.limiter.maxIPs = 10000 :=
    h.invariant (P := fun s => s.limiter.maxIPs = 10000)
      (fun _ _ _ _ hstep hm => (step_maxIPs hstep).trans hm) rfl
  refine ⟨hmax ▸ hs.bounded, fun a t hstep => ?_⟩
  exact ⟨step_evictsOldest hs hstep, step_keepsLimiters hstep⟩

/-- Two clients, of which the first one comes back. -/
theorem limiter_map_lru_clients : ∃ s, Path step named init [client 0, client 1, client 0] s ∧
    s.limiter.limiters.length ≤ 10000 := by
  have hnamed : ∀ i s, named s (client i) := by
    intro i s
    show clientIP (client i).request ≠ ""
    rw [clientIP_client]
    exact key_ne i
  have hrun : Path step named init [client 0, client 1, client 0] _ :=
    .cons (hnamed 0 _) rfl (.cons (hnamed 1 _) rfl (.cons (hnamed 0 _) rfl .nil))
  exact ⟨_, hrun, (limiter_map_lru hrun).1⟩

end Sonarr.Api.LimiterMap
