import Sonarr.Commands.RefreshDownloads
import Sonarr.Providers.Implementations

namespace Sonarr.Commands.ClientItems
open Lib Providers History RefreshDownloads

/-- A release for the series was sent to the client, which took it. -/
def GrabbedInto (sent : List Sent) (clientID seriesID : Nat) : Prop :=
  ∃ s ∈ sent, s.clientID = clientID ∧ s.seriesID = seriesID ∧ ∃ d, s.answer = .ok d

/-- A completed item was kept apart from those of other clients: what is enqueued
for it names a series grabbed into its client, and only a command that is not for
another client's item makes it a duplicate. -/
def KeptApart (sent : List Sent) (a : Attempt) : Prop :=
  match a.outcome with
  | .unknown => True
  | .duplicate own => own = true
  | .enqueued body => GrabbedInto sent a.clientID body.seriesID

/-- Only the client of `r` reports a completed item under its id. -/
def OneReporter (history : Store) (rs : List (Nat × Item)) (r : Nat × Item) : Prop :=
  ∀ q ∈ rs, Relevant history q.2 → q.2.downloadID = r.2.downloadID → q.1 = r.1

/-- An id that has an active command has one that is not for another client's
item; any other id is reported by one client, into which the series of its newest
entry was grabbed. -/
def ItemApart (history : Store) (sent : List Sent) (rs : List (Nat × Item)) (db : Db)
    (owner : Nat → Option Nat) (r : Nat × Item) : Prop :=
  if (db.findDuplicate (dedupKey r.2.downloadID)).isSome then
    owns db owner (dedupKey r.2.downloadID) r.1 = true
  else
    OneReporter history rs r ∧ ∃ seriesID, seriesFor history r.2.downloadID = some seriesID ∧
      GrabbedInto sent r.1 seriesID

/-- So it is for every reported item that is completed and known. -/
def IdsApart (history : Store) (sent : List Sent) (rs : List (Nat × Item)) (db : Db)
    (owner : Nat → Option Nat) : Prop :=
  ∀ r ∈ rs, Relevant history r.2 → ItemApart history sent rs db owner r

theorem findDuplicate_isSome {db : Db} : (db.findDuplicate key).isSome ↔
    ∃ r ∈ db.rows, r.dedupKey = key ∧ r.active = true := by
  unfold Db.findDuplicate
  rw [Option.isSome_map, List.find?_isSome]
  simp

theorem owns_iff {db : Db} : owns db owner key c = true ↔
    ∃ r ∈ db.rows, r.dedupKey = key ∧ r.active = true ∧ ∀ o, owner r.id = some o → o = c := by
  unfold owns
  rw [List.any_eq_true]
  simp [Option.all_eq_true, and_assoc]

theorem dedupKey_inj : dedupKey d = dedupKey d' ↔ d = d' := String.append_right_inj _

section Enqueue
variable {b : Books} {body : ProcessDownload}

theorem mem_enqueue : r ∈ (b.enqueue now c body).db.rows ↔ r ∈ b.db.rows ∨
    r = Db.newCommand now "ProcessDownload" body.marshal priorityNormal .scheduled
      (dedupKey body.downloadID) b.db.next := by
  show r ∈ (b.db.enqueue now _ _ _ _ _).rows ↔ _
  unfold Db.enqueue
  rw [Table.mem_insert]

theorem owner_old (h : r ∈ b.db.rows) : (b.enqueue now c body).owner r.id = b.owner r.id := by
  have hlt := b.db.below r h
  exact Function.update_of_ne (Nat.ne_of_lt hlt) _ _

theorem owner_new : (b.enqueue now c body).owner b.db.next = some c := Function.update_self _ _ _

/-- Enqueueing makes its own key active. -/
theorem enqueue_active (b : Books) (now : Int) (c : Nat) (body : ProcessDownload) :
    ((b.enqueue now c body).db.findDuplicate (dedupKey body.downloadID)).isSome :=
  findDuplicate_isSome.mpr ⟨_, mem_enqueue.mpr (.inr rfl), rfl, rfl⟩

theorem enqueue_other_active (h : d ≠ body.downloadID) :
    ((b.enqueue now c body).db.findDuplicate (dedupKey d)).isSome ↔
      (b.db.findDuplicate (dedupKey d)).isSome := by
  rw [findDuplicate_isSome, findDuplicate_isSome]
  constructor
  · rintro ⟨r, hr, hk, ha⟩
    rcases mem_enqueue.mp hr with hr | rfl
    · exact ⟨r, hr, hk, ha⟩
    · exact absurd (dedupKey_inj.mp hk).symm h
  · rintro ⟨r, hr, hk, ha⟩
    exact ⟨r, mem_enqueue.mpr (.inl hr), hk, ha⟩

theorem enqueue_other_owns (h : d ≠ body.downloadID) :
    owns (b.enqueue now c body).db (b.enqueue now c body).owner (dedupKey d) k = true ↔
      owns b.db b.owner (dedupKey d) k = true := by
  rw [owns_iff, owns_iff]
  constructor
  · rintro ⟨r, hr, hk, ha, ho⟩
    rcases mem_enqueue.mp hr with hr | rfl
    · exact ⟨r, hr, hk, ha, owner_old hr ▸ ho⟩
    · exact absurd (dedupKey_inj.mp hk).symm h
  · rintro ⟨r, hr, hk, ha, ho⟩
    exact ⟨r, mem_enqueue.mpr (.inl hr), hk, ha, (owner_old hr).symm ▸ ho⟩

/-- A key without an active command is then owned by the client it was enqueued for. -/
theorem enqueue_owns (h : b.db.findDuplicate (dedupKey body.downloadID) = none) :
    owns (b.enqueue now c body).db (b.enqueue now c body).owner (dedupKey body.downloadID) k = true ↔
      k = c := by
  rw [owns_iff]
  constructor
  · rintro ⟨r, hr, hk, ha, ho⟩
    rcases mem_enqueue.mp hr with hr | rfl
    · have hsome := findDuplicate_isSome.mpr ⟨r, hr, hk, ha⟩
      rw [h] at hsome
      cases hsome
    · exact (ho c owner_new).symm
  · rintro rfl
    refine ⟨_, mem_enqueue.mpr (.inr rfl), rfl, rfl, fun o ho => ?_⟩
    exact Option.some.inj (ho.symm.trans owner_new)

end Enqueue

section Pass
variable {history : Store} {sent : List Sent} {rs : List (Nat × Item)} {db : Db}
  {owner : Nat → Option Nat} {r : Nat × Item}

theorem oneReporter_cons (h : Relevant history q.2 → q.2.downloadID ≠ r.2.downloadID) :
    OneReporter history (q :: rs) r ↔ OneReporter history rs r := by
  constructor
  · intro ho p hp
    exact ho p (List.mem_cons_of_mem _ hp)
  · intro ho p hp hrel he
    rcases List.mem_cons.mp hp with rfl | hp
    · exact absurd he (h hrel)
    · exact ho p hp hrel he

theorem itemApart_active (h : (db.findDuplicate (dedupKey r.2.downloadID)).isSome) :
    ItemApart history sent rs db owner r ↔ owns db owner (dedupKey r.2.downloadID) r.1 = true := by
  unfold ItemApart
  rw [if_pos h]

theorem itemApart_idle (h : db.findDuplicate (dedupKey r.2.downloadID) = none)
    (hs : seriesFor history r.2.downloadID = some seriesID) :
    ItemApart history sent rs db owner r ↔
      OneReporter history rs r ∧ GrabbedInto sent r.1 seriesID := by
  unfold ItemApart
  rw [if_neg (by simp [h]), hs]
  simp

/-- Whether an item is kept apart depends on what is said of its own id only. -/
theorem itemApart_congr
    (ha : (db.findDuplicate (dedupKey r.2.downloadID)).isSome ↔
      (db'.findDuplicate (dedupKey r.2.downloadID)).isSome)
    (ho : owns db owner (dedupKey r.2.downloadID) r.1 = true ↔
      owns db' owner' (dedupKey r.2.downloadID) r.1 = true)
    (hone : OneReporter history rs r ↔ OneReporter history rs' r) :
    ItemApart history sent rs db owner r ↔ ItemApart history sent rs' db' owner' r := by
  unfold ItemApart
  by_cases h : (db.findDuplicate (dedupKey r.2.downloadID)).isSome
  · rw [if_pos h, if_pos (ha.mp h), ho]
  · rw [if_neg h, if_neg (fun h' => h (ha.mpr h')), hone]

theorem idsApart_cons_irrelevant (hr : ¬ Relevant history r.2) :
    IdsApart history sent (r :: rs) db owner ↔ IdsApart history sent rs db owner := by
  have hitem : ∀ q, ItemApart history sent (r :: rs) db owner q ↔
      ItemApart history sent rs db owner q := fun q =>
    itemApart_congr Iff.rfl Iff.rfl (oneReporter_cons (fun h => absurd h hr))
  unfold IdsApart
  simp only [List.forall_mem_cons, hitem]
  exact ⟨And.right, fun h => ⟨fun hrel => absurd hrel hr, h⟩⟩

theorem idsApart_cons_active (hr : Relevant history r.2)
    (ha : (db.findDuplicate (dedupKey r.2.downloadID)).isSome) :
    IdsApart history sent (r :: rs) db owner ↔
      owns db owner (dedupKey r.2.downloadID) r.1 = true ∧ IdsApart history sent rs db owner := by
  have hitem : ∀ q, ItemApart history sent (r :: rs) db owner q ↔
      ItemApart history sent rs db owner q := by
    intro q
    by_cases he : q.2.downloadID = r.2.downloadID
    · rw [← he] at ha
      rw [itemApart_active ha, itemApart_active ha]
    · exact itemApart_congr Iff.rfl Iff.rfl (oneReporter_cons (fun _ h => he h.symm))
  unfold IdsApart
  simp only [List.forall_mem_cons, hitem, itemApart_active ha]
  exact ⟨fun h => ⟨h.1 hr, h.2⟩, fun h => ⟨fun _ => h.1, h.2⟩⟩

/-- Once the item of an idle id is enqueued, only its client may report the id. -/
theorem idsApart_cons_enqueue {b : Books} (now : Int) (body : ProcessDownload)
    (hc : r.2.status = "completed") (hs : seriesFor history r.2.downloadID = some seriesID)
    (hn : b.db.findDuplicate (dedupKey r.2.downloadID) = none)
    (hb : body.downloadID = r.2.downloadID) :
    IdsApart history sent (r :: rs) b.db b.owner ↔ GrabbedInto sent r.1 seriesID ∧
      IdsApart history sent rs (b.enqueue now r.1 body).db (b.enqueue now r.1 body).owner := by
  have hrel : Relevant history r.2 := ⟨hc, by simp [hs]⟩
  have hother : ∀ q : Nat × Item, q.2.downloadID ≠ r.2.downloadID →
      (ItemApart history sent (r :: rs) b.db b.owner q ↔
        ItemApart history sent rs (b.enqueue now r.1 body).db (b.enqueue now r.1 body).owner q) := by
    intro q hne
    have hne' : q.2.downloadID ≠ body.downloadID := hb ▸ hne
    exact itemApart_congr (enqueue_other_active hne').symm (enqueue_other_owns hne').symm
      (oneReporter_cons (fun _ h => hne h.symm))
  have hsame : ∀ q : Nat × Item, q.2.downloadID = r.2.downloadID →
      (ItemApart history sent rs (b.enqueue now r.1 body).db (b.enqueue now r.1 body).owner q ↔
        q.1 = r.1) := by
    intro q he
    rw [← he] at hb
    have hact := enqueue_active b now r.1 body
    rw [hb] at hact
    rw [itemApart_active hact, ← hb]
    exact enqueue_owns (by rw [hb, he]; exact hn)
  constructor
  · intro h
    obtain ⟨hone, hg⟩ := (itemApart_idle hn hs).mp (h r List.mem_cons_self hrel)
    refine ⟨hg, fun q hq hqrel => ?_⟩
    by_cases he : q.2.downloadID = r.2.downloadID
    · exact (hsame q he).mpr (hone q (List.mem_cons_of_mem _ hq) hqrel he)
    · exact (hother q he).mp (h q (List.mem_cons_of_mem _ hq) hqrel)
  · rintro ⟨hg, h⟩
    have hone : OneReporter history (r :: rs) r := by
      intro q hq hqrel he
      rcases List.mem_cons.mp hq with rfl | hq
      · rfl
      · exact (hsame q he).mp (h q hq hqrel)
    intro q hq hqrel
    by_cases he : q.2.downloadID = r.2.downloadID
    · have hqr := hone q hq hqrel he
      refine (itemApart_idle (he ▸ hn) (he ▸ hs)).mpr ⟨fun p hp hprel hpe => ?_, hqr ▸ hg⟩
      exact (hone p hp hprel (hpe.trans he)).trans hqr.symm
    · rcases List.mem_cons.mp hq with rfl | hq
      · exact absurd rfl he
      · exact (hother q he).mpr (h q hq hqrel)

theorem note_log (b : Books) (c : Nat) (i : Item) (o : Outcome) (new : List Attempt) :
    (b.note c i o).log ++ new = b.log ++ ⟨c, i, o⟩ :: new := by
  simp [Books.note]

theorem handleAll_apart (history : Store) (sent : List Sent) (now : Int) (rs : List (Nat × Item))
    (b : Books) :
    ∃ new, (handleAll history now rs b).log = b.log ++ new ∧
      ((∀ a ∈ new, KeptApart sent a) ↔ IdsApart history sent rs b.db b.owner) := by
  induction rs generalizing b with
  | nil => exact ⟨[], by simp [handleAll], by simp [IdsApart]⟩
  | cons r rs ih =>
    obtain ⟨new, hlog, hnew⟩ := ih (handleItem history now r.1 b r.2)
    have hcons : handleAll history now (r :: rs) b =
        handleAll history now rs (handleItem history now r.1 b r.2) := rfl
    rw [hcons]
    rcases handleItem_cases history now r.1 b r.2 with
      ⟨hirr, he | he⟩ | ⟨hrel, hact, he⟩ | ⟨seriesID, hc, hs, hn, he⟩
    · rw [he] at hlog hnew ⊢
      exact ⟨new, hlog, hnew.trans (idsApart_cons_irrelevant hirr).symm⟩
    · rw [he] at hlog hnew ⊢
      refine ⟨_, hlog.trans (note_log _ _ _ _ new), ?_⟩
      rw [List.forall_mem_cons, hnew, idsApart_cons_irrelevant hirr]
      simp [KeptApart, Books.note]
    · rw [he] at hlog hnew ⊢
      refine ⟨_, hlog.trans (note_log _ _ _ _ new), ?_⟩
      rw [List.forall_mem_cons, hnew, idsApart_cons_active hrel hact]
      rfl
    · rw [he] at hlog hnew ⊢
      refine ⟨_, hlog.trans (note_log _ _ _ _ new), ?_⟩
      rw [List.forall_mem_cons, hnew, idsApart_cons_enqueue now ⟨r.2.outputPath, seriesID, r.2.downloadID⟩ hc hs hn rfl]
      rfl

/-- A pass keeps the clients apart exactly when their ids are apart beforehand. -/
theorem clients_apart_iff {σ : Type} (clients : Clients σ) (w : World σ) (now : Int) (db : Db)
    (owner : Nat → Option Nat) :
    (∀ a ∈ (handle clients w.history now (w.outside, ⟨db, owner, []⟩)).2.2.log,
      KeptApart w.sent a) ↔
    IdsApart w.history w.sent (allReported clients w.outside) db owner := by
  obtain ⟨new, hlog, hnew⟩ := handleAll_apart w.history w.sent now (allReported clients w.outside)
    ⟨db, owner, []⟩
  rw [handle_books, hlog, List.nil_append]
  exact hnew

end Pass

/-- NZBGet and Transmission, each at its first download; NZBGet has completed it. -/
def firstDownloads : Clients Unit where
  registry implementation :=
    if implementation = "NZBGet" then
      some (NZBGet.factory (fun _ => some ⟨"localhost", 6789, "", "", "", false⟩) (fun _ =>
        { append := fun s _ _ _ => (.ok (200, some ⟨none, some 1⟩), s)
          listgroups := fun s => (.ok (200, some ⟨none, some
            [⟨1, "Breaking.Bad.S01E01", "completed", 500, 0, "/nzb/1"⟩]⟩), s) }))
    else if implementation = "Transmission" then
      some (Transmission.factory (fun _ => some ⟨"localhost", 9091, "", "", "", false⟩) (fun _ =>
        { torrentAdd := fun s _ _ =>
            (.ok ⟨200, "", some ⟨"success", .decoded ⟨some ⟨1, "Lost"⟩, none⟩⟩⟩, s)
          torrentGet := fun s _ => (.ok ⟨200, "", some ⟨"success", .decoded []⟩⟩, s) }))
    else none
  instances := some [⟨1, "NZBGet", "NZBGet", "", true, 1⟩,
    ⟨2, "Transmission", "Transmission", "", true, 1⟩]

/-- A release of series 1 goes to NZBGet and a minute later one of series 2 to Transmission. -/
def bothGrabbed : World Unit :=
  let first := (grab firstDownloads ⟨(), 0, Table.empty, [], []⟩
    ⟨⟨"Breaking.Bad.S01E01", "https://example.com/1.nzb", 500000000, "A", .usenet⟩, 1, [1], ""⟩).2
  (grab firstDownloads { first with now := 60000000000 }
    ⟨⟨"Lost.S01E01", "https://example.com/2.torrent", 500000000, "B", .torrent⟩, 2, [2], ""⟩).2

theorem series_of_other_client_enqueued :
    ¬ ∀ a ∈ (handle firstDownloads bothGrabbed.history 90000000000
        (bothGrabbed.outside, ⟨Table.empty, fun _ => none, []⟩)).2.2.log,
      KeptApart bothGrabbed.sent a := by
  intro h
  have hlog : (handle firstDownloads bothGrabbed.history 90000000000
      (bothGrabbed.outside, ⟨Table.empty, fun _ => none, []⟩)).2.2.log =
      [⟨1, ⟨"1", "Breaking.Bad.S01E01", "completed", 524288000, 0, "/nzb/1"⟩,
        .enqueued ⟨"/nzb/1", 2, "1"⟩⟩] := by decide
  rw [hlog] at h
  obtain ⟨s, hs, hclient, hseries, _⟩ := h _ (List.mem_singleton.mpr rfl)
  have hsent : bothGrabbed.sent.map (fun s => (s.clientID, s.seriesID)) = [(1, 1), (2, 2)] := by
    decide
  have hpair := List.mem_map_of_mem (f := fun s : Sent => (s.clientID, s.seriesID)) hs
  rw [hsent] at hpair
  simp only at hclient hseries
  simp [hclient, hseries] at hpair

end Sonarr.Commands.ClientItems
