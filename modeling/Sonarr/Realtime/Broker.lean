import Sonarr.Lib.Machine

namespace Sonarr.Realtime
open Lib

/-- The body is what the clients make of it. -/
structure Message (β : Type) where
  name : String
  body : β

/-- A client with its channel; no filter accepts all. -/
structure Client (β : Type) where
  ch : List (Message β)
  closed : Bool
  filter : Option (List String)

variable {β : Type}

def Client.accepts (c : Client β) (msg : Message β) : Bool :=
  match c.filter with
  | none => true
  | some names => names.contains msg.name

/-- A broker and the calls to it that are under way. Clients are known by their
addresses; `leaving` are those that `Unsubscribe` has removed and not closed yet. A
broadcast has its message and the clients of its snapshot that are still to be served. -/
structure State (β : Type) where
  heap : Nat → Option (Client β)
  next : Nat
  clients : List Nat
  leaving : List Nat
  broadcasts : Nat → Option (Message β × List Nat)
  panicked : Bool

def start : State β := ⟨fun _ => none, 0, [], [], fun _ => none, false⟩

/-- The atomic steps. A snapshot lists the clients in the order in which the map is
gone through; a send comes with whether the client is waiting for a message. -/
inductive Action (β : Type)
  | subscribe (filter : List String)
  | remove (c : Nat)
  | close (c : Nat)
  | snapshot (call : Nat) (msg : Message β) (order : List Nat)
  | send (call : Nat) (waiting : Bool)
  | receive (c : Nat)

def State.setClient (s : State β) (c : Nat) (client : Client β) : State β :=
  { s with heap := Function.update s.heap c (some client) }

def State.setCall (s : State β) (call : Nat) (left : Option (Message β × List Nat)) : State β :=
  { s with broadcasts := Function.update s.broadcasts call left }

/-- A send in a `select` with a default. On a closed channel it panics; a client that is
waiting takes the message, a buffer with room keeps it, and otherwise it is dropped. -/
def offer (bufSize : Nat) (s : State β) (c : Nat) (client : Client β) (msg : Message β)
    (waiting : Bool) : State β :=
  if client.closed then { s with panicked := true }
  else if waiting then s
  else if client.ch.length < bufSize then s.setClient c { client with ch := client.ch ++ [msg] }
  else s

/-- A panic ends the program. -/
def step (bufSize : Nat) (s : State β) (a : Action β) : Option (State β) :=
  if s.panicked then none
  else match a with
    | .subscribe filter =>
      let client : Client β := ⟨[], false, if filter = [] then none else some filter⟩
      some { s.setClient s.next client with next := s.next + 1, clients := s.next :: s.clients }
    | .remove c =>
      if c ∈ s.clients then
        some { s with clients := s.clients.erase c, leaving := c :: s.leaving }
      else none
    | .close c =>
      if c ∈ s.leaving then
        (s.heap c).map (fun client =>
          { s.setClient c { client with closed := true } with leaving := s.leaving.erase c })
      else none
    | .snapshot call msg order =>
      if s.broadcasts call = none ∧ order.Perm s.clients then some (s.setCall call (some (msg, order)))
      else none
    | .send call waiting => match s.broadcasts call with
      | none => none
      | some (_, []) => some (s.setCall call none)
      | some (msg, c :: rest) => (s.heap c).map (fun client =>
          if client.accepts msg then
            offer bufSize (s.setCall call (some (msg, rest))) c client msg waiting
          else s.setCall call (some (msg, rest)))
    | .receive c => (s.heap c).bind (fun client => match client.ch with
      | [] => none
      | _ :: ch => some (s.setClient c { client with ch }))

/-- No broadcast under way still has the client before it with a message it accepts. -/
def Unawaited (s : State β) (c : Nat) : Prop :=
  ∀ client call msg rest, s.heap c = some client → s.broadcasts call = some (msg, rest) →
    c ∈ rest → client.accepts msg = false

/-- Channels are closed only when nothing will be sent to them any more. -/
def Quiet (s : State β) : Action β → Prop
  | .close c => Unawaited s c
  | _ => True

theorem Client.accepts_of_filter {a b : Client β} (h : a.filter = b.filter) (msg : Message β) :
    a.accepts msg = b.accepts msg := by
  simp only [Client.accepts, h]

/-- The clients to be served exist, and none of them is closed that would be sent to. -/
structure Sound (s : State β) : Prop where
  running : s.panicked = false
  known : ∀ c ∈ s.clients ++ s.leaving, c < s.next
  distinct : (s.clients ++ s.leaving).Nodup
  opened : ∀ c ∈ s.clients, ∃ client, s.heap c = some client ∧ client.closed = false
  made : ∀ call msg rest, s.broadcasts call = some (msg, rest) → ∀ c ∈ rest, (s.heap c).isSome
  pending : ∀ call msg rest, s.broadcasts call = some (msg, rest) → ∀ c ∈ rest,
    ∀ client, s.heap c = some client → client.closed = true → client.accepts msg = false

theorem sound_start : Sound (start : State β) where
  running := rfl
  known := by simp [start]
  distinct := by simp [start]
  opened := by simp [start]
  made := by simp [start]
  pending := by simp [start]

theorem Sound.subscribe {s : State β} (h : Sound s) {client : Client β}
    (hopen : client.closed = false) :
    Sound { s.setClient s.next client with next := s.next + 1, clients := s.next :: s.clients } where
  running := h.running
  known := by
    intro c hc
    simp only [List.cons_append, List.mem_cons] at hc
    obtain rfl | hc := hc
    · exact Nat.lt_succ_self _
    · exact Nat.lt_succ_of_lt (h.known c hc)
  distinct := by
    simp only [List.cons_append]
    exact List.nodup_cons.mpr ⟨fun hmem => Nat.lt_irrefl _ (h.known _ hmem), h.distinct⟩
  opened := by
    intro c hc
    obtain rfl | hc := List.mem_cons.mp hc
    · exact ⟨client, by simp [State.setClient], hopen⟩
    · have hne : c ≠ s.next := Nat.ne_of_lt (h.known c (List.mem_append_left _ hc))
      simpa [State.setClient, Function.update_of_ne hne] using h.opened c hc
  made := by
    intro call msg rest hcall c hc
    by_cases hne : c = s.next
    · simp [State.setClient, hne]
    · simpa [State.setClient, Function.update_of_ne hne] using h.made call msg rest hcall c hc
  pending := by
    intro call msg rest hcall c hc other hother hclosed
    by_cases hne : c = s.next
    · simp only [State.setClient, hne, Function.update_self, Option.some.injEq] at hother
      simp [← hother, hopen] at hclosed
    · simp only [State.setClient, Function.update_of_ne hne] at hother
      exact h.pending call msg rest hcall c hc other hother hclosed

theorem Sound.remove {s : State β} (h : Sound s) {c : Nat} (hc : c ∈ s.clients) :
    Sound { s with clients := s.clients.erase c, leaving := c :: s.leaving } := by
  have hperm : (s.clients.erase c ++ c :: s.leaving).Perm (s.clients ++ s.leaving) :=
    List.perm_middle.trans ((List.perm_cons_erase hc).symm.append_right s.leaving)
  exact {
    running := h.running
    known := fun d hd => h.known d (hperm.mem_iff.mp hd)
    distinct := hperm.nodup_iff.mpr h.distinct
    opened := fun d hd => h.opened d (List.mem_of_mem_erase hd)
    made := h.made
    pending := h.pending }

theorem Sound.close {s : State β} (h : Sound s) {c : Nat} {client : Client β}
    (hc : c ∈ s.leaving) (hclient : s.heap c = some client) (hquiet : Unawaited s c) :
    Sound { s.setClient c { client with closed := true } with leaving := s.leaving.erase c } := by
  have hsub : (s.clients ++ s.leaving.erase c).Sublist (s.clients ++ s.leaving) :=
    (List.Sublist.refl _).append List.erase_sublist
  refine ⟨h.running, fun d hd => h.known d (hsub.subset hd), h.distinct.sublist hsub, ?_, ?_, ?_⟩
  · intro d hd
    -- what is registered is not leaving
    have hne : d ≠ c := fun heq =>
      (List.nodup_append.mp h.distinct).2.2 d hd c hc heq
    simpa [State.setClient, Function.update_of_ne hne] using h.opened d hd
  · intro call msg rest hcall d hd
    by_cases hne : d = c
    · simp [State.setClient, hne]
    · simpa [State.setClient, Function.update_of_ne hne] using h.made call msg rest hcall d hd
  · intro call msg rest hcall d hd other hother hclosed
    by_cases hne : d = c
    · simp only [State.setClient, hne, Function.update_self, Option.some.injEq] at hother
      rw [← hother]
      exact hquiet client call msg rest hclient hcall (hne ▸ hd)
    · simp only [State.setClient, Function.update_of_ne hne] at hother
      exact h.pending call msg rest hcall d hd other hother hclosed

/-- A new buffer changes nothing. -/
theorem Sound.setClient {s : State β} (h : Sound s) {c : Nat} {old new : Client β}
    (hold : s.heap c = some old) (hclosed : new.closed = old.closed)
    (hfilter : new.filter = old.filter) : Sound (s.setClient c new) := by
  refine ⟨h.running, h.known, h.distinct, ?_, ?_, ?_⟩
  · intro d hd
    obtain ⟨client, hclient, hopen⟩ := h.opened d hd
    by_cases hne : d = c
    · subst hne
      cases hold.symm.trans hclient
      exact ⟨new, by simp [State.setClient], hclosed.trans hopen⟩
    · exact ⟨client, by simpa [State.setClient, Function.update_of_ne hne] using hclient, hopen⟩
  · intro call msg rest hcall d hd
    by_cases hne : d = c
    · simp [State.setClient, hne]
    · simpa [State.setClient, Function.update_of_ne hne] using h.made call msg rest hcall d hd
  · intro call msg rest hcall d hd other hother hoc
    by_cases hne : d = c
    · subst hne
      simp only [State.setClient, Function.update_self, Option.some.injEq] at hother
      subst hother
      rw [Client.accepts_of_filter hfilter]
      exact h.pending call msg rest hcall d hd old hold (hclosed ▸ hoc)
    · simp only [State.setClient, Function.update_of_ne hne] at hother
      exact h.pending call msg rest hcall d hd other hother hoc

/-- A broadcast begins with the clients that are registered, or goes on with fewer. -/
theorem Sound.setCall {s : State β} (h : Sound s) {call : Nat} {left : Option (Message β × List Nat)}
    (hleft : ∀ msg rest, left = some (msg, rest) → ∀ c ∈ rest,
      c ∈ s.clients ∨ ∃ before, s.broadcasts call = some (msg, before) ∧ c ∈ before) :
    Sound (s.setCall call left) := by
  refine ⟨h.running, h.known, h.distinct, h.opened, ?_, ?_⟩
  · intro call' msg rest hcall c hc
    by_cases heq : call' = call
    · simp only [State.setCall, heq, Function.update_self] at hcall
      obtain hreg | ⟨before, hbefore, hmem⟩ := hleft msg rest hcall c hc
      · obtain ⟨client, hclient, _⟩ := h.opened c hreg
        simp [State.setCall, hclient]
      · exact h.made call msg before hbefore c hmem
    · simp only [State.setCall, Function.update_of_ne heq] at hcall
      exact h.made call' msg rest hcall c hc
  · intro call' msg rest hcall c hc client hclient hclosed
    by_cases heq : call' = call
    · simp only [State.setCall, heq, Function.update_self] at hcall
      obtain hreg | ⟨before, hbefore, hmem⟩ := hleft msg rest hcall c hc
      · obtain ⟨other, hother, hopen⟩ := h.opened c hreg
        cases hother.symm.trans hclient
        simp [hopen] at hclosed
      · exact h.pending call msg before hbefore c hmem client hclient hclosed
    · simp only [State.setCall, Function.update_of_ne heq] at hcall
      exact h.pending call' msg rest hcall c hc client hclient hclosed

/-- A send that is not to a closed channel fills a buffer at most. -/
theorem Sound.offer {s : State β} (h : Sound s) {c : Nat} {client : Client β}
    (hclient : s.heap c = some client) (hopen : client.closed = false) (msg : Message β)
    (waiting : Bool) : Sound (offer bufSize s c client msg waiting) := by
  unfold Realtime.offer
  rw [if_neg (by simp [hopen])]
  split
  · exact h
  · split
    · exact h.setClient hclient rfl rfl
    · exact h

theorem Sound.send {s t : State β} (h : Sound s) {call : Nat} {waiting : Bool}
    (hstep : step bufSize s (.send call waiting) = some t) : Sound t := by
  simp only [step, h.running, Bool.false_eq_true, if_false] at hstep
  split at hstep
  · cases hstep
  · cases hstep
    exact h.setCall (fun _ _ hnone => by cases hnone)
  · rename_i msg c rest hcall
    obtain ⟨client, hclient, rfl⟩ := Option.map_eq_some_iff.mp hstep
    have hserved : Sound (s.setCall call (some (msg, rest))) := by
      refine h.setCall (fun msg' rest' heq d hd => .inr ?_)
      cases heq
      exact ⟨_, hcall, List.mem_cons_of_mem _ hd⟩
    split
    · rename_i hacc
      have hopen : client.closed = false := by
        by_contra hclosed
        have := h.pending call msg _ hcall c (by simp) client hclient (by simpa using hclosed)
        simp [this] at hacc
      exact hserved.offer hclient hopen msg waiting
    · exact hserved

theorem Sound.step {s t : State β} (h : Sound s) {a : Action β} (hquiet : Quiet s a)
    (hstep : step bufSize s a = some t) : Sound t := by
  cases a with
  | send call waiting => exact h.send hstep
  | subscribe filter =>
    simp only [Realtime.step, h.running, Bool.false_eq_true, if_false, Option.some.injEq] at hstep
    subst hstep
    exact h.subscribe rfl
  | remove c =>
    simp only [Realtime.step, h.running, Bool.false_eq_true, if_false,
      Option.ite_none_right_eq_some] at hstep
    obtain ⟨hc, heq⟩ := hstep
    cases heq
    simpa only [h.running] using h.remove hc
  | close c =>
    simp only [Realtime.step, h.running, Bool.false_eq_true, if_false,
      Option.ite_none_right_eq_some, Option.map_eq_some_iff] at hstep
    obtain ⟨hc, client, hclient, rfl⟩ := hstep
    exact h.close hc hclient hquiet
  | snapshot call msg order =>
    simp only [Realtime.step, h.running, Bool.false_eq_true, if_false,
      Option.ite_none_right_eq_some, Option.some.injEq] at hstep
    obtain ⟨⟨_, hperm⟩, rfl⟩ := hstep
    refine h.setCall (fun msg' rest heq c hc => .inl ?_)
    cases heq
    exact hperm.mem_iff.mp hc
  | receive c =>
    simp only [Realtime.step, h.running, Bool.false_eq_true, if_false,
      Option.bind_eq_some_iff] at hstep
    obtain ⟨client, hclient, hch⟩ := hstep
    split at hch
    · cases hch
    · cases hch
      exact h.setClient hclient rfl rfl

theorem sound_of_path {s t : State β} (path : Path (step bufSize) Quiet s as t) (h : Sound s) :
    Sound t :=
  path.invariant (fun _ _ _ hquiet hstep h => h.step hquiet hstep) h

/-- A broadcast that has a closed client before it comes to it, unless it panics earlier. -/
theorem exists_panic (bufSize : Nat) (rest : List Nat) {s : State β} (hrun : s.panicked = false)
    (hcall : s.broadcasts call = some (msg, rest)) (hmade : ∀ d ∈ rest, (s.heap d).isSome)
    (hc : c ∈ rest) {client : Client β} (hclient : s.heap c = some client)
    (hclosed : client.closed = true) (hacc : client.accepts msg = true) :
    ∃ as t, Path (step bufSize) Free s as t ∧ t.panicked = true := by
  induction rest generalizing s with
  | nil => cases hc
  | cons d rest ih =>
    obtain ⟨other, hother⟩ := Option.isSome_iff_exists.mp (hmade d (by simp))
    -- the client is waiting, so that no buffer matters
    by_cases hpanic : other.accepts msg = true ∧ other.closed = true
    · have hsend : step bufSize s (.send call true) =
          some { s.setCall call (some (msg, rest)) with panicked := true } := by
        simp [step, hrun, hcall, hother, hpanic.1, hpanic.2, offer]
      exact ⟨_, _, .cons trivial hsend .nil, rfl⟩
    · have hsend : step bufSize s (.send call true) = some (s.setCall call (some (msg, rest))) := by
        simp only [step, hrun, Bool.false_eq_true, if_false, hcall, hother, Option.map_some]
        by_cases haccepts : other.accepts msg = true
        · have hopen : ¬ other.closed = true := fun h => hpanic ⟨haccepts, h⟩
          rw [if_pos haccepts, offer, if_neg hopen, if_pos rfl]
        · rw [if_neg haccepts]
      have hmem : c ∈ rest := by
        refine (List.mem_cons.mp hc).resolve_left (fun heq => ?_)
        subst heq
        cases hclient.symm.trans hother
        exact hpanic ⟨hacc, hclosed⟩
      obtain ⟨as, t, path, ht⟩ := ih (s := s.setCall call (some (msg, rest))) hrun
        (by simp [State.setCall]) (fun e he => hmade e (List.mem_cons_of_mem _ he)) hmem hclient
      exact ⟨_, t, .cons trivial hsend path, ht⟩

/-- A channel closed while something is still to be sent to it can make a broadcast panic. -/
theorem panic_of_awaited {s t : State β} (h : Sound s) (hstep : step bufSize s (.close c) = some t)
    (hawaited : ¬ Unawaited s c) : ∃ as u, Path (step bufSize) Free t as u ∧ u.panicked = true := by
  simp only [Unawaited, not_forall] at hawaited
  obtain ⟨client, call, msg, rest, hclient, hcall, hmem, hacc⟩ := hawaited
  simp only [step, h.running, Bool.false_eq_true, if_false,
    Option.ite_none_right_eq_some, Option.map_eq_some_iff] at hstep
  obtain ⟨_, client', hclient', rfl⟩ := hstep
  cases hclient.symm.trans hclient'
  have hclosed : Function.update s.heap c (some { client with closed := true }) c =
      some { client with closed := true } := Function.update_self ..
  refine exists_panic bufSize rest h.running hcall ?_ hmem hclosed rfl ?_
  · intro d hd
    by_cases hne : d = c
    · simp [State.setClient, hne]
    · simpa [State.setClient, Function.update_of_ne hne] using h.made call msg rest hcall d hd
  · simpa [Client.accepts] using hacc

/-- No run sends on a closed channel in which channels are closed only when no broadcast
still has something for them; and closing another one after such a run can lead to it. -/
theorem broadcast_safe_of_closed_unawaited (bufSize : Nat) {as : List (Action β)} {s : State β}
    (path : Path (step bufSize) Quiet start as s) :
    s.panicked = false ∧ ∀ c t, step bufSize s (.close c) = some t →
      Unawaited s c ∨ ∃ bs u, Path (step bufSize) Free t bs u ∧ u.panicked = true := by
  have hsound := sound_of_path path sound_start
  refine ⟨hsound.running, fun c t hstep => ?_⟩
  by_cases hawaited : Unawaited s c
  · exact .inl hawaited
  · exact .inr (panic_of_awaited hsound hstep hawaited)

/-- A client that goes away after a broadcast has ended. -/
def servedFirst : List (Action Unit) :=
  [.subscribe ["series"], .snapshot 0 ⟨"series", ()⟩ [0], .send 0 false, .send 0 false, .remove 0]

/-- The state it leaves before the channel is closed. -/
def served : State Unit where
  heap := Function.update (Function.update (fun _ => none) 0 (some ⟨[], false, some ["series"]⟩)) 0
    (some ⟨[⟨"series", ()⟩], false, some ["series"]⟩)
  next := 1
  clients := []
  leaving := [0]
  broadcasts := Function.update (Function.update (Function.update (fun _ => none) 0
    (some (⟨"series", ()⟩, [0]))) 0 (some (⟨"series", ()⟩, []))) 0 none
  panicked := false

theorem closed_after_broadcast : ∃ s : State Unit,
    Path (step 1) Quiet start (servedFirst ++ [.close 0]) s ∧ s.panicked = false := by
  have hserved : Path (step 1) Quiet start servedFirst served :=
    .of_exec_guarded (by simp [servedFirst, Quiet]) rfl
  have hquiet : Unawaited served 0 := by
    intro client call msg rest _ hcall
    by_cases h : call = 0 <;> simp [served, h] at hcall
  have hclosed := hserved.snoc (show Quiet served (.close 0) from hquiet) rfl
  exact ⟨_, hclosed, (broadcast_safe_of_closed_unawaited 1 hclosed).1⟩

/-- A client that goes away between the snapshot of a broadcast and the send to it. -/
def closedUnderBroadcast : List (Action Unit) :=
  [.subscribe ["series"], .snapshot 0 ⟨"series", ()⟩ [0], .remove 0, .close 0, .send 0 false]

theorem send_on_closed_channel :
    ∃ s, Path (step 1) Free start closedUnderBroadcast s ∧ s.panicked = true := by
  have hpanic : (exec (step 1) start closedUnderBroadcast).map State.panicked = some true := by
    decide
  obtain ⟨s, hs, hp⟩ := Option.map_eq_some_iff.mp hpanic
  exact ⟨s, .of_exec hs, hp⟩

end Sonarr.Realtime
