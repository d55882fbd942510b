import Mathlib.Data.List.Induction
import Sonarr.Lib.StableSort

/-! The typed event bus. An event is a value together with its runtime type; the types are
concrete ones, since the zero value of an interface type has no runtime type to register
under. `γ` are the contexts, `ε` the errors and `σ` is whatever the handlers act on. -/

namespace Sonarr.Events

open Sonarr.Lib

variable {κ γ ε σ Event : Type}

structure HandlerEntry (γ ε σ Event : Type) where
  order : Int
  async : Bool
  fn : γ → Event → σ → Option ε × σ

/-- `asyncPool` is the capacity of the channel that bounds the goroutines. -/
structure Bus (κ γ ε σ Event : Type) where
  handlers : κ → List (HandlerEntry γ ε σ Event)
  asyncPool : Nat

def byOrder (a b : HandlerEntry γ ε σ Event) : Bool := a.order < b.order

def Bus.register [DecidableEq κ] (b : Bus κ γ ε σ Event) (eventType : κ)
    (h : HandlerEntry γ ε σ Event) : Bus κ γ ε σ Event :=
  { b with handlers := fun t =>
      if t = eventType then stableSort byOrder (b.handlers t ++ [h]) else b.handlers t }

def registerAll [DecidableEq κ] (b : Bus κ γ ε σ Event)
    (regs : List (κ × HandlerEntry γ ε σ Event)) : Bus κ γ ε σ Event :=
  regs.foldl (fun b r => b.register r.1 r.2) b

section Subscribe
variable [DecidableEq κ] {Val : κ → Type}

/-- The function that is registered: the type assertion, and no error where it fails. -/
def typed (T : κ) (handler : γ → Val T → σ → Option ε × σ) (ctx : γ)
    (event : (t : κ) × Val t) (s : σ) : Option ε × σ :=
  if h : event.1 = T then handler ctx (h ▸ event.2) s else (none, s)

def defaultSyncOrder : Int := 100

/-- A call of one of the three functions that subscribe. -/
inductive Subscription (γ ε σ : Type) (Val : κ → Type)
  | sync (T : κ) (handler : γ → Val T → σ → Option ε × σ)
  | async (T : κ) (handler : γ → Val T → σ → σ)
  | ordered (T : κ) (order : Int) (handler : γ → Val T → σ → Option ε × σ)

/-- What it registers. -/
def Subscription.registration :
    Subscription γ ε σ Val → κ × HandlerEntry γ ε σ ((t : κ) × Val t)
  | .sync T handler => (T, { order := defaultSyncOrder, async := false, fn := typed T handler })
  | .async T handler =>
    (T, { order := 0, async := true, fn := typed T (fun ctx e s => (none, handler ctx e s)) })
  | .ordered T order handler => (T, { order, async := false, fn := typed T handler })

def subscribe (b : Bus κ γ ε σ ((t : κ) × Val t)) (sub : Subscription γ ε σ Val) :
    Bus κ γ ε σ ((t : κ) × Val t) :=
  b.register sub.registration.1 sub.registration.2

def subscribeSync (b : Bus κ γ ε σ ((t : κ) × Val t)) (T : κ)
    (handler : γ → Val T → σ → Option ε × σ) := subscribe b (.sync T handler)

def subscribeAsync (b : Bus κ γ ε σ ((t : κ) × Val t)) (T : κ) (handler : γ → Val T → σ → σ) :=
  subscribe b (.async T handler)

def subscribeOrdered (b : Bus κ γ ε σ ((t : κ) × Val t)) (T : κ) (order : Int)
    (handler : γ → Val T → σ → Option ε × σ) := subscribe b (.ordered T order handler)

/-- So what holds after any registrations holds after any subscriptions. -/
theorem subscribe_eq_registerAll (b : Bus κ γ ε σ ((t : κ) × Val t))
    (subs : List (Subscription γ ε σ Val)) :
    subs.foldl subscribe b = registerAll b (subs.map Subscription.registration) := by
  rw [registerAll, List.foldl_map]
  rfl

end Subscribe

/-- A call of a sync handler and what it returned. -/
structure Call (γ ε σ Event : Type) where
  entry : HandlerEntry γ ε σ Event
  result : Option ε

/-- The first loop over the snapshot. Its third result is the record of its calls. -/
def runSync (ctx : γ) (event : Event) :
    List (HandlerEntry γ ε σ Event) → Option ε → σ →
      Option ε × σ × List (Call γ ε σ Event)
  | [], firstErr, s => (firstErr, s, [])
  | h :: rest, firstErr, s =>
    if h.async then runSync ctx event rest firstErr s
    else
      let r := h.fn ctx event s
      let firstErr := if r.1.isSome && firstErr.isNone then r.1 else firstErr
      let out := runSync ctx event rest firstErr r.2
      (out.1, out.2.1, ⟨h, r.1⟩ :: out.2.2)

inductive Start where
  | spawned
  | inline
  deriving DecidableEq, Repr

/-- The second loop. `used i` is the number of slots of the pool in use at the `i`-th
`select`; other publishers and finishing goroutines change it in between. What a spawned
handler does to the state happens later, at the goroutine's own time. -/
def runAsync (ctx : γ) (event : Event) (asyncPool : Nat) (used : Nat → Nat) :
    List (HandlerEntry γ ε σ Event) → Nat → σ →
      σ × List (HandlerEntry γ ε σ Event × Start)
  | [], _, s => (s, [])
  | h :: rest, i, s =>
    if h.async then
      if used i < asyncPool then
        let out := runAsync ctx event asyncPool used rest (i + 1) s
        (out.1, (h, .spawned) :: out.2)
      else
        let out := runAsync ctx event asyncPool used rest (i + 1) (h.fn ctx event s).2
        (out.1, (h, .inline) :: out.2)
    else runAsync ctx event asyncPool used rest i s

/-- What one `Publish` did: the error it returned, its calls of sync handlers and the
state after them, the async handlers it started and the state in which it returned. -/
structure Published (γ ε σ Event : Type) where
  err : Option ε
  calls : List (Call γ ε σ Event)
  afterSync : σ
  started : List (HandlerEntry γ ε σ Event × Start)
  state : σ

def Bus.publish {Val : κ → Type} (b : Bus κ γ ε σ ((t : κ) × Val t)) (used : Nat → Nat)
    (ctx : γ) (event : (t : κ) × Val t) (s : σ) : Published γ ε σ ((t : κ) × Val t) :=
  let snapshot := b.handlers event.1
  let sync := runSync ctx event snapshot none s
  match sync.1 with
  | some err =>
    { err := some err, calls := sync.2.2, afterSync := sync.2.1, started := [],
      state := sync.2.1 }
  | none =>
    let async := runAsync ctx event b.asyncPool used snapshot 0 sync.2.1
    { err := none, calls := sync.2.2, afterSync := sync.2.1, started := async.2,
      state := async.1 }

section Register
variable [DecidableEq κ] (regs : List (κ × HandlerEntry γ ε σ Event)) (t : κ)

end Register

section Publish
variable (ctx : γ) (event : Event)

end Publish

section Order
variable [DecidableEq κ] {Val : κ → Type}

end Order

end Sonarr.Events
