import Sonarr.Lib.Machine
import Sonarr.Commands.Queue
import Sonarr.Providers.DownloadClient

namespace Sonarr.Commands.Dedup
open Lib Providers

/-- Who enqueues under a dedup key: the scheduler's one tick loop, and any number
of `RefreshMonitoredDownloads` handlers running on different workers. -/
inductive Proc
  | scheduler
  | handler (n : Nat)
  deriving DecidableEq, Repr

/-- What they enqueue: a due task, or the import of a completed item. -/
inductive Work
  | task (typeName : String)
  | download (item : Item) (body : String)
  deriving DecidableEq, Repr

def Work.dedupKey : Work → String
  | .task typeName => typeName
  | .download item _ => "ProcessDownload:" ++ item.downloadID

def Work.call : Work → Call
  | .task typeName => .enqueue typeName "" priorityNormal .scheduled typeName
  | .download item body =>
    .enqueue "ProcessDownload" body priorityNormal .scheduled ("ProcessDownload:" ++ item.downloadID)

def Proc.does : Proc → Work → Bool
  | .scheduler, .task _ => true
  | .handler _, .download _ _ => true
  | _, _ => false

/-- `pending p` is the work for which `p` has seen no duplicate and which it is
about to enqueue. -/
structure State where
  db : Db
  now : Int
  pending : Proc → Option Work

def start (now : Int) : State := ⟨.empty, now, fun _ => none⟩

inductive Step
  | advance (ns : Nat)
  | call (c : Call)
  | enqueueManual (name body : String) (priority : Int) (trigger : Trigger)
  | findDuplicate (p : Proc) (work : Work)
  | enqueue (p : Proc)
  deriving DecidableEq, Repr

/-- Claims, reports, sweeps and cleanups of the workers and of the scheduler. -/
def Call.isEnqueue : Call → Bool
  | .enqueue .. => true
  | _ => false

/-- `FindDuplicate` reads and `Enqueue` writes in a step of its own. Commands
enqueued through the API or the file watcher carry no dedup key. -/
def step (s : State) : Step → Option State
  | .advance ns => some { s with now := s.now + ns }
  | .call c => if Call.isEnqueue c then none else some { s with db := Db.call s.db s.now c }
  | .enqueueManual name body priority trigger =>
    some { s with db := Db.call s.db s.now (.enqueue name body priority trigger "") }
  | .findDuplicate p work =>
    if p.does work = true ∧ s.pending p = none then
      match Db.findDuplicate s.db work.dedupKey with
      | some _ => some s
      | none => some { s with pending := Function.update s.pending p (some work) }
    else none
  | .enqueue p => match s.pending p with
    | none => none
    | some work => some { s with
        db := Db.call s.db s.now work.call, pending := Function.update s.pending p none }

/-- At most one active command under each dedup key. -/
def Exclusive (s : State) : Prop :=
  ∀ r ∈ s.db.rows, ∀ q ∈ s.db.rows, r.active = true → q.active = true →
    r.dedupKey = q.dedupKey → r.dedupKey ≠ "" → r.id = q.id

/-- No `FindDuplicate` runs while another process stands between its own
`FindDuplicate` and its `Enqueue` for the same key. -/
def Undisturbed (s : State) (a : Step) : Prop :=
  ∀ p work, a = .findDuplicate p work →
    ∀ q w, q ≠ p → s.pending q = some w → w.dedupKey ≠ work.dedupKey

structure Inv (s : State) : Prop where
  exclusive : Exclusive s
  vacant : ∀ p w, s.pending p = some w → w.dedupKey ≠ "" → ∀ r ∈ s.db.rows, r.active = true →
    r.dedupKey ≠ w.dedupKey
  alone : ∀ p q w v, s.pending p = some w → s.pending q = some v →
    w.dedupKey = v.dedupKey → p = q

variable {s t : State} {c : Call} {r r' : Command}

/-- No call renames a row's key. -/
theorem RowChange.dedupKey_eq (h : RowChange now c r r') : r'.dedupKey = r.dedupKey := by
  cases h <;> rfl

/-- Rows only ever leave the active statuses: a finished row is not revived. -/
theorem RowChange.active_of (h : RowChange now c r r') (ha : r'.active = true) :
    r.active = true := by
  cases h with
  | same => exact ha
  | claim hq => simp [Command.active, hq]
  | complete | fail => simp [Command.active] at ha
  | refresh hr => simp [Command.active, hr]
  | sweep he => simp [Command.active, (Command.expired_iff.mp he).1]

theorem findDuplicate_none {db : Db} (h : Db.findDuplicate db k = none) (hr : r ∈ db.rows)
    (ha : r.active = true) : r.dedupKey ≠ k := by
  simp only [Db.findDuplicate, Option.map_eq_none_iff, List.find?_eq_none] at h
  have := h r hr
  simpa [ha] using this

/-- After a call that inserts nothing, an active row was active before it. -/
theorem call_active_origin {db : Db} (hc : Call.isEnqueue c = false)
    (hr : r' ∈ (Db.call db now c).rows) (ha : r'.active = true) :
    ∃ r ∈ db.rows, r.id = r'.id ∧ r.active = true ∧ r.dedupKey = r'.dedupKey := by
  rcases Db.call_backward hr with ⟨r, hm, hch⟩ | hins
  · exact ⟨r, hm, hch.id_eq.symm, RowChange.active_of hch ha, (RowChange.dedupKey_eq hch).symm⟩
  · cases c <;> simp [Db.inserted, Call.isEnqueue] at hins hc

theorem Inv.call (h : Inv s) (hc : Call.isEnqueue c = false) :
    Inv { s with db := Db.call s.db s.now c } := by
  refine ⟨?_, ?_, h.alone⟩
  · intro r hr q hq har haq hk hne
    obtain ⟨r₀, hr₀, hid, ha, hk₀⟩ := call_active_origin hc hr har
    obtain ⟨q₀, hq₀, hqid, hqa, hqk⟩ := call_active_origin hc hq haq
    rw [← hid, ← hqid]
    exact h.exclusive r₀ hr₀ q₀ hq₀ ha hqa (by rw [hk₀, hqk, hk]) (by rw [hk₀]; exact hne)
  · intro p w hp hne r hr har
    obtain ⟨r₀, hr₀, _, ha, hk₀⟩ := call_active_origin hc hr har
    rw [← hk₀]
    exact h.vacant p w hp hne r₀ hr₀ ha

/-- Inserting under a key that is empty, or that no active row has, keeps keys
exclusive. -/
theorem Exclusive.insert (h : Exclusive s)
    (hk : k = "" ∨ ∀ r ∈ s.db.rows, r.active = true → r.dedupKey ≠ k) :
    Exclusive { s with db := Db.call s.db s.now (.enqueue name body p tr k) } := by
  intro r hr q hq har haq hrq hne
  simp only [Db.call, Db.enqueue, Table.mem_insert] at hr hq
  rcases hr with hr | rfl <;> rcases hq with hq | rfl
  · exact h r hr q hq har haq hrq hne
  · rcases hk with rfl | hk
    · exact absurd hrq hne
    · exact absurd hrq (hk r hr har)
  · rcases hk with rfl | hk
    · exact absurd rfl hne
    · exact absurd hrq.symm (hk q hq haq)
  · rfl

theorem Work.call_eq (work : Work) :
    ∃ name body, work.call = .enqueue name body priorityNormal .scheduled work.dedupKey := by
  cases work with
  | task typeName => exact ⟨typeName, "", rfl⟩
  | download item body => exact ⟨"ProcessDownload", body, rfl⟩

theorem Inv.enqueueManual (h : Inv s) :
    Inv { s with db := Db.call s.db s.now (.enqueue name body pr tr "") } := by
  refine ⟨h.exclusive.insert (.inl rfl), ?_, h.alone⟩
  intro p w hp hne r hr har
  simp only [Db.call, Db.enqueue, Table.mem_insert] at hr
  rcases hr with hr | rfl
  · exact h.vacant p w hp hne r hr har
  · exact hne.symm

theorem Inv.findDuplicate (h : Inv s) (hu : Undisturbed s (.findDuplicate p work))
    (ht : step s (.findDuplicate p work) = some t) : Inv t := by
  simp only [step] at ht
  split at ht
  · split at ht
    · cases ht
      exact h
    · rename_i hnone
      cases ht
      refine ⟨h.exclusive, ?_, ?_⟩
      · intro q w hq hne r hr har
        by_cases he : q = p
        · simp only [he, Function.update_self, Option.some.injEq] at hq
          subst hq
          exact findDuplicate_none hnone hr har
        · simp only [Function.update_of_ne he] at hq
          exact h.vacant q w hq hne r hr har
      · intro q q' w w' hq hq' hk
        by_cases he : q = p <;> by_cases he' : q' = p
        · rw [he, he']
        · simp only [he, Function.update_self, Option.some.injEq] at hq
          simp only [Function.update_of_ne he'] at hq'
          exact absurd (hq ▸ hk.symm) (hu p work rfl q' w' he' hq')
        · simp only [he', Function.update_self, Option.some.injEq] at hq'
          simp only [Function.update_of_ne he] at hq
          exact absurd (hq' ▸ hk) (hu p work rfl q w he hq)
        · simp only [Function.update_of_ne he] at hq
          simp only [Function.update_of_ne he'] at hq'
          exact h.alone q q' w w' hq hq' hk
  · cases ht

theorem Inv.enqueue (h : Inv s) (hp : s.pending p = some work) :
    Inv { s with
      db := Db.call s.db s.now work.call, pending := Function.update s.pending p none } := by
  obtain ⟨name, body, hcall⟩ := work.call_eq
  rw [hcall]
  refine ⟨?_, ?_, ?_⟩
  · by_cases hk : work.dedupKey = ""
    · exact h.exclusive.insert (.inl hk)
    · exact h.exclusive.insert (.inr (h.vacant p work hp hk))
  · intro q w hq hne r hr har
    have hqp : q ≠ p := by
      rintro rfl
      simp at hq
    simp only [Function.update_of_ne hqp] at hq
    simp only [Db.call, Db.enqueue, Table.mem_insert] at hr
    rcases hr with hr | rfl
    · exact h.vacant q w hq hne r hr har
    · intro hk
      exact hqp (h.alone q p w work hq hp hk.symm)
  · intro q q' w w' hq hq' hk
    have hqp : q ≠ p := by
      rintro rfl
      simp at hq
    have hqp' : q' ≠ p := by
      rintro rfl
      simp at hq'
    simp only [Function.update_of_ne hqp] at hq
    simp only [Function.update_of_ne hqp'] at hq'
    exact h.alone q q' w w' hq hq' hk

theorem Inv.step (h : Inv s) (hu : Undisturbed s a) (ht : Dedup.step s a = some t) : Inv t := by
  cases a with
  | advance ns =>
    cases ht
    exact ⟨h.exclusive, h.vacant, h.alone⟩
  | call c =>
    simp only [Dedup.step] at ht
    split at ht
    · cases ht
    · rename_i hc
      cases ht
      exact h.call (by simpa using hc)
  | enqueueManual name body pr tr =>
    cases ht
    exact h.enqueueManual
  | findDuplicate p work => exact h.findDuplicate hu ht
  | enqueue p =>
    simp only [Dedup.step] at ht
    split at ht
    · cases ht
    · rename_i work hp
      cases ht
      exact h.enqueue hp

theorem path_inv (h : Path step Undisturbed (start now) as s) : Inv s :=
  h.invariant (fun _ _ _ hu ht hs => hs.step hu ht)
    ⟨fun _ hr => (nomatch hr), fun _ _ hp => (nomatch hp), fun _ _ _ _ hp => (nomatch hp)⟩

/-- A check that does run inside another process's window finds nothing either,
and both processes then enqueue. -/
theorem disturbed_duplicates (h : Inv s) (hdoes : p.does work = true) (hidle : s.pending p = none)
    (hne : work.dedupKey ≠ "") (hu : ¬ Undisturbed s (.findDuplicate p work)) :
    ∃ q t, exec step s [.findDuplicate p work, .enqueue q, .enqueue p] = some t ∧ ¬ Exclusive t := by
  simp only [Undisturbed, Step.findDuplicate.injEq, and_imp, not_forall, not_not] at hu
  obtain ⟨p', work', rfl, rfl, q, w, hqp, hq, hk⟩ := hu
  have hnone : Db.findDuplicate s.db work.dedupKey = none := by
    simp only [Db.findDuplicate, Option.map_eq_none_iff, List.find?_eq_none, Bool.and_eq_true,
      beq_iff_eq, not_and]
    intro r hr hrk har
    exact h.vacant q w hq (by rw [hk]; exact hne) r hr har (hrk.trans hk.symm)
  obtain ⟨name, body, hw⟩ := w.call_eq
  obtain ⟨name', body', hwork⟩ := work.call_eq
  let db₁ := Db.call s.db s.now w.call
  let db₂ := Db.call db₁ s.now work.call
  let pending₁ := Function.update s.pending p (some work)
  let pending₂ := Function.update (Function.update pending₁ q none) p none
  refine ⟨q, { s with db := db₂, pending := pending₂ }, ?_, ?_⟩
  · simp only [exec, step, hdoes, hidle, and_self, if_true, hnone, Function.update_of_ne hqp, hq,
      Function.update_of_ne hqp.symm, Function.update_self, db₂, db₁, pending₂, pending₁]
  · intro hex
    have h₁ : Db.newCommand s.now name body priorityNormal .scheduled w.dedupKey s.db.next ∈
        db₂.rows := by
      simp [db₂, db₁, hw, hwork, Db.call, Db.enqueue, Table.mem_insert]
    have h₂ : Db.newCommand s.now name' body' priorityNormal .scheduled work.dedupKey
        (s.db.next + 1) ∈ db₂.rows := by
      simp only [db₂, db₁, hw, hwork, Db.call, Db.enqueue, Table.mem_insert]
      exact .inr rfl
    have := hex _ h₁ _ h₂ rfl rfl hk (fun he => hne (hk.symm.trans he))
    simp [Db.newCommand] at this

/-- Where no check runs inside another's window, keys stay exclusive; a check
that does run there lets both processes enqueue. -/
theorem exclusive_while_undisturbed (h : Path step Undisturbed (start now) as s) :
    Exclusive s ∧
    ∀ p work, p.does work = true → s.pending p = none → work.dedupKey ≠ "" →
      ¬ Undisturbed s (.findDuplicate p work) →
      ∃ q t, exec step s [.findDuplicate p work, .enqueue q, .enqueue p] = some t ∧
        ¬ Exclusive t :=
  ⟨(path_inv h).exclusive, fun _ _ hdoes hidle hne hu =>
    disturbed_duplicates (path_inv h) hdoes hidle hne hu⟩

/-- The import of one finished Transmission torrent. -/
def finishedImport : Work :=
  .download ⟨"1", "Show.S01E01.720p", "completed", 100, 0, "/downloads"⟩
    "\x7b\"downloadFolder\":\"/downloads\",\"seriesId\":1,\"downloadId\":\"1\"\x7d"

/-- A scheduled and a manual `RefreshMonitoredDownloads` on two workers. -/
def overlappingChecks : List Step :=
  [.findDuplicate (.handler 0) finishedImport, .findDuplicate (.handler 1) finishedImport,
    .enqueue (.handler 0), .enqueue (.handler 1)]

theorem overlapping_checks_duplicate :
    ¬ ∀ now as s, Path step Free (start now) as s → Exclusive s := by
  intro h
  have hrun : ((exec step (start 0) overlappingChecks).map
      (fun s => s.db.rows.map (fun r => (r.id, r.active, r.dedupKey)))) =
      some [(1, true, "ProcessDownload:1"), (2, true, "ProcessDownload:1")] := by decide
  obtain ⟨s, hs, hrows⟩ := Option.map_eq_some_iff.mp hrun
  have hx := h 0 _ s (Path.of_exec hs)
  obtain ⟨r, hr, hre⟩ := List.mem_map.mp (hrows ▸ List.mem_cons_self)
  obtain ⟨q, hq, hqe⟩ := List.mem_map.mp (hrows ▸ List.mem_cons_of_mem _ List.mem_cons_self)
  simp only [Prod.mk.injEq] at hre hqe
  have hid := hx r hr q hq hre.2.1 hqe.2.1 (hre.2.2.trans hqe.2.2.symm) (by simp [hre.2.2])
  omega

/-- The same two handlers one after the other: the second one finds the command
of the first. -/
def separateChecks : List Step :=
  [.findDuplicate (.handler 0) finishedImport, .enqueue (.handler 0),
    .findDuplicate (.handler 1) finishedImport, .findDuplicate .scheduler (.task "RssSync")]

theorem separate_checks_exclusive :
    ∃ s, Path step Undisturbed (start 0) separateChecks s ∧ s.db.rows.length = 1 ∧
      s.pending .scheduler = some (.task "RssSync") ∧ Exclusive s := by
  obtain ⟨s, hp, hlen, hpend⟩ : ∃ s, Path step Undisturbed (start 0) separateChecks s ∧
      s.db.rows.length = 1 ∧ s.pending .scheduler = some (.task "RssSync") := by
    refine ⟨_, .cons ?_ rfl (.cons ?_ rfl (.cons ?_ rfl (.cons ?_ rfl .nil))), rfl, rfl⟩
    all_goals
      intro p work hfind q w hq hpend
      simp [start, Function.update_idem] at hfind hpend
  exact ⟨s, hp, hlen, hpend, (exclusive_while_undisturbed hp).1⟩

end Sonarr.Commands.Dedup
