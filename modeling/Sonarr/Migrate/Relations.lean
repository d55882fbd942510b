import Mathlib.Data.List.Infix
import Sonarr.Migrate.Run

namespace Sonarr.Migrate
open Lib Transfer
open Commands (sqliteTime)

/-! What a creation adds. -/

section Create
variable {json : Decoder} {remaps : List PathRemap} {env : Env}
  {seriesMap episodeFileMap episodeMap : Int → Option Nat}

/-- The series with their column `added`. -/
def seriesRows (d : Library × (Nat → Int)) : List (Series × Int) :=
  d.1.series.rows.map (fun r => (r, d.2 r.id))

/-- The episode files with their column `date_added`. -/
def fileRows (d : Library × (Nat → Int)) : List (EpisodeFile × Int) :=
  d.1.files.rows.map (fun r => (r, d.2 r.id))

def SeriesImage (remaps : List PathRemap) (env : Env) (s : SourceSeries) (id : Nat)
    (r : Series × Int) : Prop :=
  r = ({ (s.series remaps).stored with id }, sqliteTime (env.now .series s.id))

theorem createSeries_some (h : createSeries remaps env s d = some (i, d')) :
    d'.1 = { d.1 with series := d'.1.series } ∧
      (i = d.1.series.next ∧ d'.1.series.next = d.1.series.next + 1) ∧
      ∃ r, seriesRows d' = seriesRows d ++ [r] ∧ SeriesImage remaps env s i r := by
  unfold createSeries at h
  split at h
  · cases h
  · unfold Library.createSeries at h
    split at h
    · cases h
    · rename_i row lib hc
      split at hc
      · cases hc
      · cases hc
        cases h
        exact ⟨rfl, ⟨rfl, rfl⟩, _, Table.beside_insert d.2 _, rfl⟩

def ProfileImage (json : Decoder) (s : SourceQualityProfile) (id : Nat)
    (r : Profiles.QualityProfile) : Prop :=
  1 ≤ id ∧ ∃ items, json.items s.items = some items ∧ r = { s.profile items with id }

theorem createProfile_some (hnext : 1 ≤ d.next) (h : createProfile json env s d = some (i, d')) :
    1 ≤ d'.next ∧ ∃ r, d'.rows = d.rows ++ [r] ∧ ProfileImage json s i r := by
  unfold createProfile at h
  split at h
  · cases h
  · rename_i items hitems
    split at h
    · cases h
    · cases h
      exact ⟨Nat.le_succ_of_le hnext, _, rfl, hnext, items, hitems, rfl⟩

def SeasonImage (seriesMap : Int → Option Nat) (s : SourceSeason) (r : Season) : Prop :=
  seriesMap s.seriesID = some r.seriesID ∧ r.seasonNumber = toInt32 s.seasonNumber ∧
    r.monitored = s.monitored

theorem createSeason_some (h : createSeason env seriesMap s lib = some (i, lib')) :
    ∃ r, SeasonImage seriesMap s r ∧
      lib' = { lib with seasons := upsert Season.key r lib.seasons } := by
  unfold createSeason at h
  split at h
  · cases h
  · rename_i seriesID hs
    split at h
    · cases h
    · obtain ⟨l, hl, he⟩ := Option.map_eq_some_iff.mp h
      cases he
      unfold Library.upsertSeason at hl
      split at hl
      · cases hl
        exact ⟨_, ⟨hs, rfl, rfl⟩, rfl⟩
      · cases hl

def FileImage (json : Decoder) (env : Env) (seriesMap : Int → Option Nat) (f : SourceEpisodeFile)
    (id : Nat) (r : EpisodeFile × Int) : Prop :=
  ∃ seriesID, seriesMap f.seriesID = some seriesID ∧
    r = ({ f.file json seriesID with id }, sqliteTime (env.now .episodeFile f.id))

theorem createEpisodeFile_some (h : createEpisodeFile json env seriesMap f d = some (i, d')) :
    d'.1 = { d.1 with files := d'.1.files } ∧
      ∃ r, fileRows d' = fileRows d ++ [r] ∧ FileImage json env seriesMap f i r := by
  unfold createEpisodeFile at h
  split at h
  · cases h
  · rename_i seriesID hs
    split at h
    · cases h
    · obtain ⟨lib, hl, he⟩ := Option.map_eq_some_iff.mp h
      cases he
      unfold Library.createFile at hl
      split at hl
      · cases hl
        exact ⟨rfl, _, Table.beside_insert d.2 _, seriesID, hs, rfl⟩
      · cases hl

def EpisodeImage (env : Env) (seriesMap episodeFileMap : Int → Option Nat) (e : SourceEpisode)
    (id : Nat) (r : Episode) : Prop :=
  ∃ seriesID, seriesMap e.seriesID = some seriesID ∧
    r = { e.episode episodeFileMap seriesID with
      id, updatedAt := sqliteTime (env.now .episode e.id) }

theorem createEpisode_some (h : createEpisode env seriesMap episodeFileMap e lib = some (i, lib')) :
    lib' = { lib with episodes := lib'.episodes } ∧
      ∃ r, lib'.episodes.rows = lib.episodes.rows ++ [r] ∧
        EpisodeImage env seriesMap episodeFileMap e i r := by
  unfold createEpisode at h
  split at h
  · cases h
  · rename_i seriesID hs
    split at h
    · cases h
    · obtain ⟨l, hl, he⟩ := Option.map_eq_some_iff.mp h
      cases he
      unfold Library.createEpisode at hl
      split at hl
      · cases hl
        exact ⟨rfl, _, rfl, seriesID, hs, rfl⟩
      · cases hl

def HistoryImage (json : Decoder) (env : Env) (seriesMap episodeMap : Int → Option Nat)
    (h : SourceHistory) (r : HistoryEntry) : Prop :=
  ∃ seriesID episodeID, seriesMap h.seriesID = some seriesID ∧
    episodeMap h.episodeID = some episodeID ∧
    r = { id := r.id, episodeID, seriesID, sourceTitle := h.sourceTitle
          qualityName := extractQualityName json h.quality, eventType := h.eventType
          date := sqliteTime (env.now .history h.id), downloadID := h.downloadID
          data := orEmpty h.data }

theorem createHistory_some (hc : createHistory json env seriesMap episodeMap h t = some (i, t')) :
    ∃ r, t'.rows = t.rows ++ [r] ∧ HistoryImage json env seriesMap episodeMap h r := by
  unfold createHistory at hc
  split at hc
  · cases hc
  · rename_i seriesID hs
    split at hc
    · cases hc
    · rename_i episodeID he
      split at hc
      · cases hc
      · cases hc
        exact ⟨_, rfl, seriesID, episodeID, hs, he, rfl⟩

theorem createIndexer_some (h : createIndexer env s t = some (i, t')) :
    ∃ r, t'.rows = t.rows ++ [r] := by
  unfold createIndexer at h
  split at h <;> cases h
  exact ⟨_, rfl⟩

theorem createDownloadClient_some (h : createDownloadClient env s t = some (i, t')) :
    ∃ r, t'.rows = t.rows ++ [r] := by
  unfold createDownloadClient at h
  split at h <;> cases h
  exact ⟨_, rfl⟩

theorem createNotification_some (h : createNotification env s t = some (i, t')) :
    ∃ r, t'.rows = t.rows ++ [r] := by
  unfold createNotification at h
  split at h <;> cases h
  exact ⟨_, rfl⟩

/-- A pass that appends what it creates to an empty table counts its rows. -/
theorem count_of_appended {α ρ : Type} [Keyed ρ] {key : α → Int}
    {create : α → Table ρ → Option (Unit × Table ρ)} {src : List α} {d : Table ρ}
    (heq : transfer key create src ⟨.empty, fun _ => none, 0⟩ = ⟨d, ids, n⟩)
    (hkeys : (src.map key).Nodup)
    (hcreate : ∀ {a d i d'}, create a d = some (i, d') → ∃ r, d'.rows = d.rows ++ [r]) :
    n = d.rows.length := by
  refine (transfer_copied heq (fun d => d.rows) (fun _ _ _ => True) (fun _ _ => True)
    (fun _ _ _ h => h) ?_ hkeys trivial rfl (fun _ => rfl) rfl).count
  intro a rest d i d' _ hc
  obtain ⟨r, hr⟩ := hcreate hc
  exact ⟨trivial, r, hr, trivial⟩

end Create

/-- A migrator for a destination without rows. -/
def fresh (config : Option Auth.HostConfig) : Migrator := .start { Dest.empty with config }

theorem migrateAPIKey_fresh (h : migrateAPIKey reads opts env (fresh config) = .ok m) :
    ∃ config, m = fresh config := by
  unfold migrateAPIKey at h
  split at h
  · cases h
    exact ⟨config, rfl⟩
  · split at h
    · cases h
      exact ⟨config, rfl⟩
    · split at h
      · cases h
      · cases h
        exact ⟨_, rfl⟩

/-- Every table has an `Id` that is its primary key. -/
structure Tables.UniqueIds (t : Tables) : Prop where
  qualityProfiles : (t.qualityProfiles.map SourceQualityProfile.id).Nodup
  series : (t.series.map SourceSeries.id).Nodup
  seasons : (t.seasons.map SourceSeason.id).Nodup
  episodeFiles : (t.episodeFiles.map SourceEpisodeFile.id).Nodup
  episodes : (t.episodes.map SourceEpisode.id).Nodup
  indexers : (t.indexers.map SourceIndexer.id).Nodup
  downloadClients : (t.downloadClients.map SourceDownloadClient.id).Nodup
  notifications : (t.notifications.map SourceNotification.id).Nodup
  history : (t.history.map SourceHistory.id).Nodup

namespace Written
variable {json : Decoder} {opts : Options} {env : Env} {t : Tables} {m m' : Migrator}
  {report : Report} {lib₁ lib₂ lib₃ : Library} {config : Option Auth.HostConfig}

/-! Later passes leave the earlier tables alone. -/

theorem lib_eq (w : Written json opts env t m report m' lib₁ lib₂ lib₃) :
    m'.dest.lib = { lib₃ with episodes := m'.dest.lib.episodes } :=
  transfer_invariant w.episodes (fun lib => lib = { lib₃ with episodes := lib.episodes })
    (fun _ _ _ _ hc hl => by rw [(createEpisode_some hc).1, hl]) rfl

theorem lib₃_eq (w : Written json opts env t m report m' lib₁ lib₂ lib₃) :
    lib₃ = { lib₂ with files := lib₃.files } :=
  transfer_invariant w.episodeFiles (fun d => d.1 = { lib₂ with files := d.1.files })
    (fun _ _ _ _ hc hl => by rw [(createEpisodeFile_some hc).1, hl]) rfl

theorem lib₂_eq (w : Written json opts env t m report m' lib₁ lib₂ lib₃) :
    lib₂ = { lib₁ with seasons := lib₂.seasons } := by
  obtain ⟨ids, h⟩ := w.seasons
  refine transfer_invariant h (fun lib => lib = { lib₁ with seasons := lib.seasons }) ?_ rfl
  intro s lib i lib' hc hl
  obtain ⟨r, _, rfl⟩ := createSeason_some hc
  rw [hl]

theorem lib₁_eq (w : Written json opts env t m report m' lib₁ lib₂ lib₃) :
    lib₁ = { m.dest.lib with series := lib₁.series } :=
  transfer_invariant w.series (fun d => d.1 = { m.dest.lib with series := d.1.series })
    (fun _ _ _ _ hc hl => by rw [(createSeries_some hc).1, hl]) rfl

theorem series_eq (w : Written json opts env t m report m' lib₁ lib₂ lib₃) :
    m'.dest.lib.series = lib₁.series := by
  rw [w.lib_eq, w.lib₃_eq, w.lib₂_eq]

theorem seasons_eq (w : Written json opts env t m report m' lib₁ lib₂ lib₃) :
    m'.dest.lib.seasons = lib₂.seasons := by
  rw [w.lib_eq, w.lib₃_eq]

theorem files_eq (w : Written json opts env t m report m' lib₁ lib₂ lib₃) :
    m'.dest.lib.files = lib₃.files := by
  rw [w.lib_eq]

theorem series_copied (w : Written json opts env t (fresh config) report m' lib₁ lib₂ lib₃)
    (h : t.UniqueIds) : Copied SourceSeries.id (SeriesImage opts.remaps env) t.series m'.seriesMap
      (seriesRows (m'.dest.lib, m'.dest.added)) report.series := by
  have hrows : seriesRows (m'.dest.lib, m'.dest.added) = seriesRows (lib₁, m'.dest.added) := by
    unfold seriesRows
    rw [w.series_eq]
  rw [hrows]
  exact transfer_copied w.series seriesRows _ (fun _ _ => True) (fun _ _ _ h => h)
    (fun _ _ _ _ _ _ hc => ⟨trivial, (createSeries_some hc).2.2⟩) h.series trivial rfl
    (fun _ => rfl) rfl

theorem seriesMap_injective (w : Written json opts env t (fresh config) report m' lib₁ lib₂ lib₃) :
    ∀ i j k, m'.seriesMap i = some k → m'.seriesMap j = some k → i = j := by
  refine transfer_injective w.series (fun d k => k < d.1.series.next) ?_ ?_ ?_
  · intro s d i d' hc
    obtain ⟨_, ⟨rfl, hnext⟩, _⟩ := createSeries_some hc
    rw [hnext]
    exact ⟨Nat.lt_irrefl _, Nat.lt_succ_self _, fun k hk => Nat.lt_succ_of_lt hk⟩
  · intro i k hi
    cases hi
  · intro i j k hi
    cases hi

theorem episodeFiles_copied (w : Written json opts env t (fresh config) report m' lib₁ lib₂ lib₃)
    (h : t.UniqueIds) : Copied SourceEpisodeFile.id (FileImage json env m'.seriesMap) t.episodeFiles
      m'.episodeFileMap (fileRows (m'.dest.lib, m'.dest.dateAdded)) report.episodeFiles := by
  have hrows : fileRows (m'.dest.lib, m'.dest.dateAdded) = fileRows (lib₃, m'.dest.dateAdded) := by
    unfold fileRows
    rw [w.files_eq]
  have hempty : fileRows (lib₂, (fresh config).dest.dateAdded) = [] := by
    unfold fileRows
    rw [w.lib₂_eq, w.lib₁_eq]
    rfl
  rw [hrows]
  exact transfer_copied w.episodeFiles fileRows _ (fun _ _ => True) (fun _ _ _ h => h)
    (fun _ _ _ _ _ _ hc => ⟨trivial, (createEpisodeFile_some hc).2⟩) h.episodeFiles trivial hempty
    (fun _ => rfl) rfl

theorem episodes_copied (w : Written json opts env t (fresh config) report m' lib₁ lib₂ lib₃)
    (h : t.UniqueIds) :
    Copied SourceEpisode.id (EpisodeImage env m'.seriesMap m'.episodeFileMap) t.episodes
      m'.episodeMap m'.dest.lib.episodes.rows report.episodes := by
  have hempty : lib₃.episodes.rows = [] := by
    rw [w.lib₃_eq, w.lib₂_eq, w.lib₁_eq]
    rfl
  exact transfer_copied w.episodes (fun lib => lib.episodes.rows) _ (fun _ _ => True)
    (fun _ _ _ h => h) (fun _ _ _ _ _ _ hc => ⟨trivial, (createEpisode_some hc).2⟩) h.episodes
    trivial hempty (fun _ => rfl) rfl

/-- As long as no two seasons get the same row, a season never replaces another. -/
theorem seasons_copied (w : Written json opts env t (fresh config) report m' lib₁ lib₂ lib₃)
    (h : t.UniqueIds) (hapart : t.seasons.Pairwise (fun a b => ∀ x y,
      SeasonImage m'.seriesMap a x → SeasonImage m'.seriesMap b y → x.key ≠ y.key)) :
    ∃ ids, Copied SourceSeason.id (fun s (_ : Unit) r => SeasonImage m'.seriesMap s r) t.seasons ids
      m'.dest.lib.seasons report.seasons := by
  obtain ⟨ids, heq⟩ := w.seasons
  have hempty : lib₁.seasons = [] := by
    rw [w.lib₁_eq]
    rfl
  rw [w.seasons_eq]
  refine ⟨ids, transfer_copied heq (fun lib => lib.seasons) _
    (fun rest lib => rest.Pairwise (fun a b => ∀ x y, SeasonImage m'.seriesMap a x →
        SeasonImage m'.seriesMap b y → x.key ≠ y.key) ∧
      ∀ s ∈ rest, ∀ x, SeasonImage m'.seriesMap s x → ∀ r ∈ lib.seasons, r.key ≠ x.key)
    ?_ ?_ h.seasons ⟨hapart, by simp [hempty]⟩ hempty (fun _ => rfl) rfl⟩
  · intro a rest lib hready
    exact ⟨(List.pairwise_cons.mp hready.1).2,
      fun s hs => hready.2 s (List.mem_cons_of_mem _ hs)⟩
  · intro a rest lib i lib' hready hc
    obtain ⟨r, himage, rfl⟩ := createSeason_some hc
    obtain ⟨hhead, htail⟩ := List.pairwise_cons.mp hready.1
    have happend := upsert_of_absent (hready.2 a List.mem_cons_self r himage)
    refine ⟨⟨htail, ?_⟩, r, happend, himage⟩
    intro s hs x hx q hq
    rw [happend] at hq
    rcases List.mem_append.mp hq with hq | hq
    · exact hready.2 s (List.mem_cons_of_mem _ hs) x hx q hq
    · rw [List.mem_singleton.mp hq]
      exact hhead s hs r x himage hx

theorem history_copied (w : Written json opts env t (fresh config) report m' lib₁ lib₂ lib₃)
    (h : t.UniqueIds) : ∃ ids, Copied SourceHistory.id
      (fun h (_ : Unit) r => HistoryImage json env m'.seriesMap m'.episodeMap h r)
      (if opts.skipHistory then [] else t.history) ids m'.dest.history.rows report.history := by
  obtain ⟨ids, heq⟩ := w.history
  have hkeys : ((if opts.skipHistory then [] else t.history).map SourceHistory.id).Nodup := by
    split
    · exact List.nodup_nil
    · exact h.history
  exact ⟨ids, transfer_copied heq (fun d => d.rows) _ (fun _ _ => True) (fun _ _ _ h => h)
    (fun _ _ _ _ _ _ hc => ⟨trivial, createHistory_some hc⟩) hkeys trivial rfl (fun _ => rfl) rfl⟩

theorem history_images (w : Written json opts env t (fresh config) report m' lib₁ lib₂ lib₃)
    (h : t.UniqueIds) : List.SublistForall₂
      (fun r e => HistoryImage json env m'.seriesMap m'.episodeMap e r)
      m'.dest.history.rows t.history := by
  obtain ⟨_, hcopied⟩ := w.history_copied h
  obtain ⟨copied, hall, hsub⟩ := List.sublistForall₂_iff.mp hcopied.images
  have hread : (if opts.skipHistory then [] else t.history).Sublist t.history := by
    split
    · exact List.nil_sublist _
    · exact List.Sublist.refl _
  refine List.sublistForall₂_iff.mpr ⟨copied, hall.imp ?_, hsub.trans hread⟩
  rintro r e ⟨_, _, himage⟩
  exact himage

theorem profiles_copied (w : Written json opts env t (fresh config) report m' lib₁ lib₂ lib₃)
    (h : t.UniqueIds) : Copied SourceQualityProfile.id (ProfileImage json) t.qualityProfiles
      m'.profileMap m'.dest.profiles.rows report.qualityProfiles :=
  transfer_copied w.profiles (fun d => d.rows) _ (fun _ d => 1 ≤ d.next) (fun _ _ _ h => h)
    (fun _ _ _ _ _ hnext hc => createProfile_some hnext hc) h.qualityProfiles (Nat.le_refl 1) rfl
    (fun _ => rfl) rfl

/-- No migrated series has a profile. -/
theorem profile_zero (w : Written json opts env t (fresh config) report m' lib₁ lib₂ lib₃)
    (h : t.UniqueIds) (hr : r ∈ m'.dest.lib.series.rows) : r.qualityProfileID = 0 := by
  obtain ⟨copied, hall, _⟩ := List.sublistForall₂_iff.mp (w.series_copied h).images
  obtain ⟨s, _, _, _, himage⟩ := forall₂_mem_left hall (List.mem_map_of_mem hr)
  rw [show r = _ from congrArg Prod.fst himage]
  rfl

theorem providers_count (w : Written json opts env t (fresh config) report m' lib₁ lib₂ lib₃)
    (h : t.UniqueIds) : report.indexers = m'.dest.indexers.rows.length ∧
      report.downloadClients = m'.dest.downloadClients.rows.length ∧
      report.notifications = m'.dest.notifications.rows.length := by
  obtain ⟨_, hindexers⟩ := w.indexers
  obtain ⟨_, hclients⟩ := w.downloadClients
  obtain ⟨_, hnotifications⟩ := w.notifications
  exact ⟨count_of_appended hindexers h.indexers createIndexer_some,
    count_of_appended hclients h.downloadClients createDownloadClient_some,
    count_of_appended hnotifications h.notifications createNotification_some⟩

/-- No pass counts more rows than it has read. -/
theorem count_le (w : Written json opts env t m report m' lib₁ lib₂ lib₃) :
    report.series ≤ t.series.length ∧ report.seasons ≤ t.seasons.length ∧
      report.episodes ≤ t.episodes.length ∧ report.episodeFiles ≤ t.episodeFiles.length ∧
      report.qualityProfiles ≤ t.qualityProfiles.length ∧ report.indexers ≤ t.indexers.length ∧
      report.downloadClients ≤ t.downloadClients.length ∧
      report.notifications ≤ t.notifications.length ∧
      report.history ≤ (if opts.skipHistory then 0 else t.history.length) := by
  obtain ⟨_, hseasons⟩ := w.seasons
  obtain ⟨_, hindexers⟩ := w.indexers
  obtain ⟨_, hclients⟩ := w.downloadClients
  obtain ⟨_, hnotifications⟩ := w.notifications
  obtain ⟨_, hhistory⟩ := w.history
  have hlast := transfer_count_le hhistory
  refine ⟨?_, ?_, ?_, ?_, ?_, ?_, ?_, ?_, ?_⟩
  · simpa using transfer_count_le w.series
  · simpa using transfer_count_le hseasons
  · simpa using transfer_count_le w.episodes
  · simpa using transfer_count_le w.episodeFiles
  · simpa using transfer_count_le w.profiles
  · simpa using transfer_count_le hindexers
  · simpa using transfer_count_le hclients
  · simpa using transfer_count_le hnotifications
  · cases hskip : opts.skipHistory <;> simpa [hskip] using hlast

end Written

/-- The migrated rows relate to each other as their source rows do: each table holds
the images of some of its source rows, all their references mapped, the id maps know
exactly the rows created, and the report counts them. -/
structure RelationGraph (t : Tables) (m : Migrator) (report : Report) : Prop where
  series : List.SublistForall₂ (fun r s => m.seriesMap s.id = some r.id)
    m.dest.lib.series.rows t.series
  seasons : List.SublistForall₂ (fun r s => SeasonImage m.seriesMap s r) m.dest.lib.seasons t.seasons
  episodeFiles : List.SublistForall₂ (fun r f => m.episodeFileMap f.id = some r.id ∧
      m.seriesMap f.seriesID = some r.seriesID) m.dest.lib.files.rows t.episodeFiles
  episodes : List.SublistForall₂ (fun r e => m.episodeMap e.id = some r.id ∧
      m.seriesMap e.seriesID = some r.seriesID ∧
      r.episodeFileID = e.episodeFileID.bind m.episodeFileMap) m.dest.lib.episodes.rows t.episodes
  history : List.SublistForall₂ (fun r h => m.seriesMap h.seriesID = some r.seriesID ∧
      m.episodeMap h.episodeID = some r.episodeID ∧ r.sourceTitle = h.sourceTitle ∧
      r.eventType = h.eventType ∧ r.downloadID = h.downloadID) m.dest.history.rows t.history
  seriesMap : ∀ i k, m.seriesMap i = some k →
    ∃ s ∈ t.series, s.id = i ∧ ∃ r ∈ m.dest.lib.series.rows, r.id = k
  episodeFileMap : ∀ i k, m.episodeFileMap i = some k → ∃ f ∈ t.episodeFiles, f.id = i ∧
    ∃ r ∈ m.dest.lib.files.rows, r.id = k ∧ m.seriesMap f.seriesID = some r.seriesID
  episodeMap : ∀ i k, m.episodeMap i = some k → ∃ e ∈ t.episodes, e.id = i ∧
    ∃ r ∈ m.dest.lib.episodes.rows, r.id = k ∧ m.seriesMap e.seriesID = some r.seriesID
  seriesCount : report.series = m.dest.lib.series.rows.length
  seasonsCount : report.seasons = m.dest.lib.seasons.length
  episodeFilesCount : report.episodeFiles = m.dest.lib.files.rows.length
  episodesCount : report.episodes = m.dest.lib.episodes.rows.length
  historyCount : report.history = m.dest.history.rows.length
  profilesCount : report.qualityProfiles = m.dest.profiles.rows.length
  indexersCount : report.indexers = m.dest.indexers.rows.length
  clientsCount : report.downloadClients = m.dest.downloadClients.rows.length
  notificationsCount : report.notifications = m.dest.notifications.rows.length

/-- For every entity the first report counts no more than the second. -/
structure Report.AtMost (a b : Report) : Prop where
  series : a.series ≤ b.series
  seasons : a.seasons ≤ b.seasons
  episodes : a.episodes ≤ b.episodes
  episodeFiles : a.episodeFiles ≤ b.episodeFiles
  qualityProfiles : a.qualityProfiles ≤ b.qualityProfiles
  indexers : a.indexers ≤ b.indexers
  downloadClients : a.downloadClients ≤ b.downloadClients
  notifications : a.notifications ≤ b.notifications
  history : a.history ≤ b.history

/-- Whatever the stores refuse, a run into a destination without rows keeps the
relations, and a dry run of any migrator changes nothing and announces no less. -/
def PreservesRelations (json : Decoder) (src : Source) (opts : Options) (t : Tables) : Prop :=
  (∀ env config report m,
    run json src.reads { opts with dryRun := false } env (fresh config) = (.ok report, m) →
    RelationGraph t m report) ∧
  ∀ env m, ∃ dry, run json src.reads { opts with dryRun := true } env m = (.ok dry, m) ∧
    ∀ env report m', run json src.reads { opts with dryRun := false } env m = (.ok report, m') →
      report.AtMost dry

/-- No two seasons of a series of the source have the same number as `int32`. -/
def SeasonsApart (t : Tables) : Prop :=
  t.seasons.Pairwise (fun a b => a.seriesID = b.seriesID → a.seriesID ∈ t.series.map SourceSeries.id →
    toInt32 a.seasonNumber ≠ toInt32 b.seasonNumber)

section Graph
variable {json : Decoder} {opts : Options} {env : Env} {t : Tables} {m m' : Migrator}
  {report : Report} {lib₁ lib₂ lib₃ : Library} {config : Option Auth.HostConfig}

theorem seasons_apart (w : Written json opts env t (fresh config) report m' lib₁ lib₂ lib₃)
    (h : t.UniqueIds) (hapart : SeasonsApart t) : t.seasons.Pairwise (fun a b => ∀ x y,
      SeasonImage m'.seriesMap a x → SeasonImage m'.seriesMap b y → x.key ≠ y.key) := by
  refine List.Pairwise.imp ?_ hapart
  intro a b hab x y hx hy hkey
  obtain ⟨hseries, hnumber⟩ : x.seriesID = y.seriesID ∧ x.seasonNumber = y.seasonNumber :=
    Prod.mk.inj hkey
  have hsame : a.seriesID = b.seriesID :=
    w.seriesMap_injective _ _ _ hx.1 (hseries ▸ hy.1)
  obtain ⟨s, hs, hid, _⟩ := (w.series_copied h).known _ _ hx.1
  exact hab hsame (List.mem_map.mpr ⟨s, hs, hid⟩) (hx.2.1.symm.trans (hnumber.trans hy.2.1))

theorem graph_of_written (w : Written json opts env t (fresh config) report m' lib₁ lib₂ lib₃)
    (h : t.UniqueIds) (hapart : SeasonsApart t) : RelationGraph t m' report := by
  have hseries := w.series_copied h
  have hfiles := w.episodeFiles_copied h
  have hepisodes := w.episodes_copied h
  obtain ⟨_, hseasons⟩ := w.seasons_copied h (seasons_apart w h hapart)
  obtain ⟨_, hhistory⟩ := w.history_copied h
  obtain ⟨hindexers, hclients, hnotifications⟩ := w.providers_count h
  refine ⟨?_, ?_, ?_, ?_, ?_, ?_, ?_, ?_, ?_, hseasons.count, ?_, hepisodes.count, hhistory.count,
    (w.profiles_copied h).count, hindexers, hclients, hnotifications⟩
  · refine sublistForall₂_imp (List.sublistForall₂_map_left_iff.mp hseries.images) ?_
    rintro r s ⟨i, hi, himage⟩
    rw [hi, show r = _ from congrArg Prod.fst himage]
  · refine sublistForall₂_imp hseasons.images ?_
    rintro r s ⟨_, _, himage⟩
    exact himage
  · refine sublistForall₂_imp (List.sublistForall₂_map_left_iff.mp hfiles.images) ?_
    rintro r f ⟨i, hi, seriesID, hs, himage⟩
    rw [hi, hs, show r = _ from congrArg Prod.fst himage]
    exact ⟨rfl, rfl⟩
  · refine sublistForall₂_imp hepisodes.images ?_
    rintro r e ⟨i, hi, seriesID, hs, rfl⟩
    exact ⟨hi, hs, rfl⟩
  · refine sublistForall₂_imp (w.history_images h) ?_
    rintro r e ⟨seriesID, episodeID, hs, he, himage⟩
    rw [himage]
    exact ⟨hs, he, rfl, rfl, rfl⟩
  · intro i k hi
    obtain ⟨s, hs, hid, r, hr, himage⟩ := hseries.known i k hi
    obtain ⟨q, hq, rfl⟩ := List.mem_map.mp hr
    exact ⟨s, hs, hid, q, hq, by rw [show q = _ from congrArg Prod.fst himage]⟩
  · intro i k hi
    obtain ⟨f, hf, hid, r, hr, seriesID, hs, himage⟩ := hfiles.known i k hi
    obtain ⟨q, hq, rfl⟩ := List.mem_map.mp hr
    refine ⟨f, hf, hid, q, hq, ?_⟩
    rw [show q = _ from congrArg Prod.fst himage]
    exact ⟨rfl, hs⟩
  · intro i k hi
    obtain ⟨e, he, hid, r, hr, seriesID, hs, rfl⟩ := hepisodes.known i k hi
    exact ⟨e, he, hid, _, hr, rfl, hs⟩
  · rw [hseries.count]
    exact List.length_map _
  · rw [hfiles.count]
    exact List.length_map _

end Graph

/-! Runs in which the stores accept a few rows only. -/

/-- The stores refuse every row but those with the given ids. -/
def Env.only (now : Entity → Int → Int) (ids : Entity → List Int) : Env :=
  ⟨fun entity i => !(ids entity).contains i, now, none⟩

section Only
variable {json : Decoder} {opts : Options} {t : Tables} {m m' : Migrator} {report : Report}
  {lib₁ lib₂ lib₃ : Library} {config : Option Auth.HostConfig} {now : Entity → Int → Int}
  {ids : Entity → List Int}

theorem transfer_only {α δ κ : Type} {key : α → Int} {create : α → δ → Option (κ × δ)}
    {p q : Progress δ Int κ} {src sub : List α} (entity : Entity)
    (hno : ∀ a d, (Env.only now ids).rejects entity (key a) = true → create a d = none)
    (heq : transfer key create src p = q) (hsub : sub.Sublist src) (hkeys : (src.map key).Nodup)
    (hids : ids entity = sub.map key) : q = transfer key create sub p := by
  rw [← heq, transfer_filter, filter_keys hsub hkeys]
  intro a d hok
  refine hno a d ?_
  simp only [Env.only, hids, hok, Bool.not_false]

/-- If one row is accepted and can be created, it is mapped to what is created. -/
theorem mapped_only {α δ κ : Type} {key : α → Int} {create : α → δ → Option (κ × δ)}
    {p q : Progress δ Int κ} {src : List α} {a : α} (entity : Entity)
    (hno : ∀ a d, (Env.only now ids).rejects entity (key a) = true → create a d = none)
    (heq : transfer key create src p = q) (hkeys : (src.map key).Nodup) (ha : a ∈ src)
    (hids : ids entity = [key a]) (hc : ∃ c, create a p.dest = some c) :
    ∃ k, q.ids (key a) = some k := by
  obtain ⟨c, hc⟩ := hc
  have hq := transfer_only entity hno heq (List.singleton_sublist.mpr ha) hkeys hids
  exact ⟨c.1, hq ▸ transfer_singleton hc⟩

theorem createSeries_rejected {env : Env} (h : env.rejects .series s.id = true) :
    createSeries remaps env s d = none := by
  unfold createSeries
  rw [if_pos h]

theorem createSeason_rejected {env : Env} (h : env.rejects .season s.id = true) :
    createSeason env seriesMap s lib = none := by
  unfold createSeason
  split
  · rfl
  · rw [if_pos h]

theorem accepted (h : i ∈ ids entity) : (Env.only now ids).rejects entity i = false := by
  simp [Env.only, h]

/-- A series that clashes with no row is created. -/
theorem createSeries_free {env : Env} {remaps : List PathRemap} {s : SourceSeries}
    {d : Library × (Nat → Int)} (hacc : env.rejects .series s.id = false)
    (hfree : ∀ r ∈ d.1.series.rows, (s.series remaps).clashes r = false) :
    ∃ c, createSeries remaps env s d = some c ∧ ∀ r ∈ c.2.1.series.rows,
      r ∈ d.1.series.rows ∨ r = { (s.series remaps).stored with id := d.1.series.next } := by
  have hnone : d.1.series.rows.any (s.series remaps).clashes = false := by
    simpa [List.any_eq_false] using hfree
  unfold createSeries Library.createSeries
  simp only [hacc, hnone, Bool.false_eq_true, if_false]
  exact ⟨_, rfl, fun r hr => Table.mem_insert.mp hr⟩

/-- Accepted series that do not clash with each other are migrated. -/
theorem series_mapped {sub : List SourceSeries}
    (w : Written json opts (Env.only now ids) t (fresh config) report m' lib₁ lib₂ lib₃)
    (h : t.UniqueIds) (hsub : sub.Sublist t.series) (hids : ids .series = sub.map SourceSeries.id)
    (hapart : sub.Pairwise (fun a b => (b.series opts.remaps).clashes (a.series opts.remaps) = false)) :
    ∀ s ∈ sub, ∃ k, m'.seriesMap s.id = some k ∧ lib₁.hasSeries k = true := by
  have hq := transfer_only .series (fun _ _ => createSeries_rejected) w.series hsub h.series hids
  have hall := transfer_all hq.symm (fun rest d => (∀ s ∈ rest, s ∈ sub) ∧
      rest.Pairwise (fun a b => (b.series opts.remaps).clashes (a.series opts.remaps) = false) ∧
      ∀ s ∈ rest, ∀ r ∈ d.1.series.rows, (s.series opts.remaps).clashes r = false) ?_
    ⟨fun s hs => hs, hapart, fun _ _ r hr => by cases hr⟩
  · intro s hs
    obtain ⟨k, hk⟩ := Option.isSome_iff_exists.mp (hall s hs)
    obtain ⟨y, _, _, r, hr, himage⟩ := (w.series_copied h).known _ _ hk
    obtain ⟨q, hq, rfl⟩ := List.mem_map.mp hr
    refine ⟨k, hk, Library.hasSeries_iff.mpr ⟨q, w.series_eq ▸ hq, ?_⟩⟩
    rw [show q = _ from congrArg Prod.fst himage]
  · intro s rest d ⟨hmem, hpair, hfree⟩
    obtain ⟨hhead, htail⟩ := List.pairwise_cons.mp hpair
    have hacc : (Env.only now ids).rejects .series s.id = false :=
      accepted (hids ▸ List.mem_map_of_mem (hmem s List.mem_cons_self))
    obtain ⟨c, hc, hrows⟩ := createSeries_free hacc (hfree s List.mem_cons_self)
    refine ⟨c, hc, fun x hx => hmem x (List.mem_cons_of_mem _ hx), htail, ?_⟩
    intro x hx r hr
    rcases hrows r hr with hr | rfl
    · exact hfree x (List.mem_cons_of_mem _ hx) r hr
    · exact hhead x hx

theorem createEpisodeFile_rejected {env : Env} (h : env.rejects .episodeFile f.id = true) :
    createEpisodeFile json env seriesMap f d = none := by
  unfold createEpisodeFile
  split
  · rfl
  · rw [if_pos h]

theorem createEpisode_rejected {env : Env} (h : env.rejects .episode e.id = true) :
    createEpisode env seriesMap episodeFileMap e lib = none := by
  unfold createEpisode
  split
  · rfl
  · rw [if_pos h]

/-- A file of a migrated series is migrated. -/
theorem episodeFile_mapped
    (w : Written json opts (Env.only now ids) t (fresh config) report m' lib₁ lib₂ lib₃)
    (h : t.UniqueIds) (hf : f ∈ t.episodeFiles) (hids : ids .episodeFile = [f.id])
    (hk : m'.seriesMap f.seriesID = some k) (hhas : lib₁.hasSeries k = true) :
    ∃ j, m'.episodeFileMap f.id = some j := by
  have hacc : (Env.only now ids).rejects .episodeFile f.id = false := accepted (by simp [hids])
  have hhas₂ : lib₂.hasSeries k = true := by
    rw [w.lib₂_eq]
    exact hhas
  refine mapped_only .episodeFile (fun _ _ => createEpisodeFile_rejected) w.episodeFiles
    h.episodeFiles hf hids ?_
  simp [createEpisodeFile, Library.createFile, SourceEpisodeFile.file, hk, hacc, hhas₂]

/-- An episode of a migrated series is migrated, if it is the only one. -/
theorem episode_mapped
    (w : Written json opts (Env.only now ids) t (fresh config) report m' lib₁ lib₂ lib₃)
    (h : t.UniqueIds) (he : e ∈ t.episodes) (hids : ids .episode = [e.id])
    (hk : m'.seriesMap e.seriesID = some k) (hhas : lib₁.hasSeries k = true) :
    ∃ j, m'.episodeMap e.id = some j := by
  have hacc : (Env.only now ids).rejects .episode e.id = false := accepted (by simp [hids])
  have hhas₃ : lib₃.hasSeries k = true := by
    rw [w.lib₃_eq, w.lib₂_eq]
    exact hhas
  have hempty : lib₃.episodes.rows = [] := by
    rw [w.lib₃_eq, w.lib₂_eq, w.lib₁_eq]
    rfl
  refine mapped_only .episode (fun _ _ => createEpisode_rejected) w.episodes h.episodes he hids ?_
  simp [createEpisode, Library.createEpisode, SourceEpisode.episode, hk, hacc, hhas₃, hempty]

theorem createSeason_mapped {env : Env} (hmap : seriesMap s.seriesID = some k)
    (hacc : env.rejects .season s.id = false) (hhas : lib.hasSeries k = true) :
    createSeason env seriesMap s lib = some ((), { lib with
      seasons := upsert Season.key ⟨k, toInt32 s.seasonNumber, s.monitored⟩ lib.seasons }) := by
  simp [createSeason, Library.upsertSeason, hmap, hacc, hhas]

/-- Two seasons that agree as `int32` are counted twice and kept once. -/
theorem seasons_only
    (w : Written json opts (Env.only now ids) t (fresh config) report m' lib₁ lib₂ lib₃)
    (h : t.UniqueIds) (hs : s ∈ t.series) (hab : [a, b].Sublist t.seasons)
    (hids : ids .series = [s.id]) (hids' : ids .season = [a.id, b.id]) (ha : a.seriesID = s.id)
    (hb : b.seriesID = s.id) (hnumber : toInt32 a.seasonNumber = toInt32 b.seasonNumber) :
    report.seasons = 2 ∧ m'.dest.lib.seasons.length = 1 := by
  obtain ⟨k, hk, hhas⟩ := series_mapped w h (List.singleton_sublist.mpr hs) hids
    (List.pairwise_singleton ..) s List.mem_cons_self
  obtain ⟨_, heq⟩ := w.seasons
  have hq := transfer_only .season (fun _ _ => createSeason_rejected) heq hab h.seasons hids'
  have hmapa : m'.seriesMap a.seriesID = some k := ha ▸ hk
  have hmapb : m'.seriesMap b.seriesID = some k := hb ▸ hk
  have hacc : ∀ x ∈ [a.id, b.id], (Env.only now ids).rejects .season x = false :=
    fun x hx => accepted (hids' ▸ hx)
  have hempty : lib₁.seasons = [] := by
    rw [w.lib₁_eq]
    rfl
  rw [transfer_cons, step_some (createSeason_mapped hmapa (hacc _ (by simp)) hhas), transfer_cons,
    step_some (createSeason_mapped hmapb (hacc _ (by simp)) hhas)] at hq
  have hfields := congrArg (fun q => (q.dest.seasons, q.count)) hq
  simp only [transfer, List.foldl_nil, Prod.mk.injEq] at hfields
  rw [w.seasons_eq, hfields.1, hfields.2, hempty]
  simp [upsert, Season.key, hnumber]

end Only

theorem migrateAPIKey_only (reads : Reads) (opts : Options) (now : Entity → Int → Int)
    (ids : Entity → List Int) : ∃ config,
      migrateAPIKey reads opts (Env.only now ids) (fresh none) = .ok (fresh config) := by
  unfold migrateAPIKey
  split
  · exact ⟨none, rfl⟩
  · split
    · exact ⟨none, rfl⟩
    · exact ⟨_, rfl⟩

theorem run_only (json : Decoder) {reads : Reads} {opts : Options} {t : Tables}
    (hread : reads.Gives opts t) (hdry : opts.dryRun = false) (now : Entity → Int → Int)
    (ids : Entity → List Int) : ∃ config report m lib₁ lib₂ lib₃,
      run json reads opts (Env.only now ids) (fresh none) = (.ok report, m) ∧
      Written json opts (Env.only now ids) t (fresh config) report m lib₁ lib₂ lib₃ := by
  obtain ⟨config, hm⟩ := migrateAPIKey_only reads opts now ids
  obtain ⟨lib₁, lib₂, lib₃, w⟩ := written_writeAll json opts (Env.only now ids) t (fresh config)
  exact ⟨config, _, _, lib₁, lib₂, lib₃, run_write hread hdry hm, w⟩

/-- The state a run ends in, whatever it returns, comes from the rows it got to. -/
theorem written_of_key {json : Decoder} {reads : Reads} {opts : Options} {env : Env}
    (hdry : opts.dryRun = false) (hkey : migrateAPIKey reads opts env m = .ok m₁) :
    ∃ report lib₁ lib₂ lib₃, Written json opts env reads.upToError m₁ report
      (run json reads opts env m).2 lib₁ lib₂ lib₃ := by
  rw [run_state hdry hkey]
  exact ⟨_, written_writeAll json opts env reads.upToError m₁⟩

theorem written_only (json : Decoder) (reads : Reads) {opts : Options} (hdry : opts.dryRun = false)
    (now : Entity → Int → Int) (ids : Entity → List Int) :
    ∃ config report lib₁ lib₂ lib₃, Written json opts (Env.only now ids) reads.upToError
      (fresh config) report (run json reads opts (Env.only now ids) (fresh none)).2
      lib₁ lib₂ lib₃ := by
  obtain ⟨config, hkey⟩ := migrateAPIKey_only reads opts now ids
  exact ⟨config, written_of_key hdry hkey⟩

/-- A run that writes and returns no error has gone through all its passes. -/
theorem written_of_run {json : Decoder} {reads : Reads} {opts : Options} {env : Env} {t : Tables}
    (hread : reads.Gives opts t) (hdry : opts.dryRun = false)
    (hrun : run json reads opts env m = (.ok report, m')) :
    ∃ m₁ lib₁ lib₂ lib₃, migrateAPIKey reads opts env m = .ok m₁ ∧
      Written json opts env t m₁ report m' lib₁ lib₂ lib₃ := by
  cases hkey : migrateAPIKey reads opts env m with
  | error e =>
    rw [run_error hkey] at hrun
    cases hrun
  | ok m₁ =>
    rw [run_write hread hdry hkey] at hrun
    cases hrun
    obtain ⟨lib₁, lib₂, lib₃, w⟩ := written_writeAll json opts env t m₁
    exact ⟨m₁, lib₁, lib₂, lib₃, rfl, w⟩

theorem Written.atMost (w : Written json opts env t m report m' lib₁ lib₂ lib₃)
    (hskip : opts'.skipHistory = opts.skipHistory) : report.AtMost (dryReport opts' t) := by
  obtain ⟨h₁, h₂, h₃, h₄, h₅, h₆, h₇, h₈, h₉⟩ := w.count_le
  refine ⟨h₁, h₂, h₃, h₄, h₅, h₆, h₇, h₈, ?_⟩
  simp only [dryReport, hskip]
  exact h₉

/-- A run in which only one series and two of its seasons are accepted tells the
seasons apart. -/
theorem seasonsApart_of_preserves {json : Decoder} {src : Source} {opts : Options} {t : Tables}
    (hread : src.reads.Gives opts t) (hids : t.UniqueIds)
    (hkeep : PreservesRelations json src opts t) : SeasonsApart t := by
  refine List.pairwise_iff_forall_sublist.mpr ?_
  intro a b hab hseries hmem hnumber
  obtain ⟨s, hs, hid⟩ := List.mem_map.mp hmem
  let ids : Entity → List Int := fun
    | .series => [s.id]
    | .season => [a.id, b.id]
    | _ => []
  have hwrite : src.reads.Gives { opts with dryRun := false } t := { hread with }
  obtain ⟨config, report, m, lib₁, lib₂, lib₃, hrun, w⟩ :=
    run_only json hwrite rfl (fun _ _ => 0) ids
  have hgraph := hkeep.1 _ none report m hrun
  obtain ⟨htwo, hone⟩ := seasons_only w hids hs hab rfl rfl hid.symm (hseries ▸ hid.symm) hnumber
  have hcount := hgraph.seasonsCount
  omega

/-- Migration keeps the relation graph for exactly the sources in which no two seasons
of a series become one by the conversion of their numbers. -/
theorem preserves_relations_iff (json : Decoder) (src : Source) (opts : Options) (t : Tables)
    (hread : src.reads.Gives opts t) (hids : t.UniqueIds) :
    PreservesRelations json src opts t ↔ SeasonsApart t := by
  have hwrite : src.reads.Gives { opts with dryRun := false } t := { hread with }
  have hdry : src.reads.Gives { opts with dryRun := true } t := { hread with }
  refine ⟨seasonsApart_of_preserves hread hids, fun hapart => ⟨?_, ?_⟩⟩
  · intro env config report m hrun
    obtain ⟨m₁, lib₁, lib₂, lib₃, hkey, w⟩ := written_of_run hwrite rfl hrun
    obtain ⟨config', rfl⟩ := migrateAPIKey_fresh hkey
    exact graph_of_written w hids hapart
  · intro env m
    refine ⟨_, run_dry hdry rfl, ?_⟩
    intro env' report m' hrun
    obtain ⟨m₁, lib₁, lib₂, lib₃, _, w⟩ := written_of_run hwrite rfl hrun
    exact w.atMost rfl

/-- A source with one series that has the given season numbers, and an episode with its file. -/
def Source.withSeasons (numbers : List (Int × Int)) : Source where
  apiKey := some (.text "0123456789abcdef")
  qualityProfiles := some []
  series := some [⟨.integer 1, .integer 81189, .text "Breaking Bad", .text "breakingbad",
    .text "ended", .text "/tv/Breaking Bad", .integer 1, .text "standard",
    .text "2020-01-01 00:00:00", .null⟩]
  seasons := some (numbers.map (fun n => ⟨.integer n.1, .integer 1, .integer n.2, .integer 1⟩))
  episodeFiles := some [⟨.integer 7, .integer 1, .integer 1, .text "Season 01/1.mkv", .integer 100,
    .text "2020-01-02 00:00:00", .text "", .text ""⟩]
  episodes := some [⟨.integer 5, .integer 1, .integer 1, .integer 1, .integer 0, .text "Pilot",
    .text "", .null, .integer 1, .integer 7⟩]
  indexers := some []
  downloadClients := some []
  notifications := some []
  history := some []

def Tables.withSeasons (numbers : List (Int × Int)) : Tables where
  qualityProfiles := []
  series := [⟨1, 81189, "Breaking Bad", "breakingbad", "ended", "/tv/Breaking Bad", true, "standard",
    parseSonarrTime "2020-01-01 00:00:00"⟩]
  seasons := numbers.map (fun n => ⟨n.1, 1, n.2, true⟩)
  episodeFiles := [⟨7, 1, 1, "Season 01/1.mkv", 100, parseSonarrTime "2020-01-02 00:00:00", "", ""⟩]
  episodes := [⟨5, 1, 1, 1, none, "Pilot", "", none, true, some 7⟩]
  indexers := []
  downloadClients := []
  notifications := []
  history := []

def plainOptions : Options := ⟨[], false, false⟩

theorem gives_two (i j : Int) : (Source.withSeasons [(1, i), (2, j)]).reads.Gives plainOptions
    (Tables.withSeasons [(1, i), (2, j)]) :=
  ⟨rfl, rfl, rfl, rfl, rfl, rfl, rfl, rfl, fun _ => rfl⟩

theorem uniqueIds_two (i j : Int) : (Tables.withSeasons [(1, i), (2, j)]).UniqueIds := by
  constructor <;> simp [Tables.withSeasons]

theorem two_seasons_preserved : PreservesRelations .failing (Source.withSeasons [(1, 1), (2, 2)])
    plainOptions (Tables.withSeasons [(1, 1), (2, 2)]) :=
  (preserves_relations_iff .failing _ plainOptions _ (gives_two 1 2) (uniqueIds_two 1 2)).mpr
    (by unfold SeasonsApart; decide)

/-- Seasons 1 and 4294967297: the report says two seasons, the table has one. -/
theorem two_seasons_one_row :
    (Source.withSeasons [(1, 1), (2, 4294967297)]).reads.Gives plainOptions
      (Tables.withSeasons [(1, 1), (2, 4294967297)]) ∧
    (Tables.withSeasons [(1, 1), (2, 4294967297)]).UniqueIds ∧
    ¬ PreservesRelations .failing (Source.withSeasons [(1, 1), (2, 4294967297)]) plainOptions
      (Tables.withSeasons [(1, 1), (2, 4294967297)]) ∧
    ∃ report m, run .failing (Source.withSeasons [(1, 1), (2, 4294967297)]).reads plainOptions
        ⟨fun _ _ => false, fun _ _ => 0, none⟩ (fresh none) = (.ok report, m) ∧
      report.seasons = 2 ∧ m.dest.lib.seasons.length = 1 := by
  refine ⟨gives_two _ _, uniqueIds_two _ _, ?_, _, _, rfl, rfl, rfl⟩
  intro hkeep
  have hapart := seasonsApart_of_preserves (gives_two _ _) (uniqueIds_two _ _) hkeep
  revert hapart
  unfold SeasonsApart
  decide

end Sonarr.Migrate
