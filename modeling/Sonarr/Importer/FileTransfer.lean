import Sonarr.Lib.SlashPath
import Sonarr.Lib.Symlinks

/-! How a file is put into its place. Any name may be one of a symbolic link, but the directories on
the way to it are none, and no path is spelled in two ways. -/
namespace Sonarr.FileTransfer
open Lib

variable {β : Type}

/-- What the operating system decides by itself: any call may be refused although the names would
allow it, for lack of rights, of space or of a directory, or because of another device. No call of
a transfer is made twice. -/
structure Refusals (β : Type) where
  stat : String → Option String
  mkdir : String → Option String
  lstat : String → Option String
  link : Option String
  openFile : Option String
  create : Option String
  copy : Option String
  close : Option String
  remove : Option String
  rename : Option String
  /-- What a copy holds that could not be finished or closed. -/
  left : List β

/-- Every call is let through that the names allow. -/
def Refusals.none (left : List β) : Refusals β where
  stat _ := .none
  mkdir _ := .none
  lstat _ := .none
  link := .none
  openFile := .none
  create := .none
  copy := .none
  close := .none
  remove := .none
  rename := .none
  left

/-- The answer to a call that may be refused. -/
def ask {α : Type} (refusal : Option String) (call : Except String α) : Except String α :=
  match refusal with
  | some e => .error e
  | none => call

/-- Where a symbolic link leads: its text is read from the root or from the link's directory. -/
def locate (link target : String) : String :=
  if Text.hasPrefix target "/" then (SlashPath.clean target).render
  else (SlashPath.join [(SlashPath.dir link).render, target]).render

/-- `os.MkdirAll`, for a directory and those above it, the innermost first. -/
def mkdirAll (fs : Linked String β) (r : Refusals β) :
    List String → Except String Unit × Linked String β
  | [] => (.ok (), fs)
  | dir :: above =>
    match r.stat dir, fs.stat locate dir with
    | none, some .directory => (.ok (), fs)
    | none, some (.file _) => (.error "not a directory", fs)
    | _, _ => match mkdirAll fs r above with
      | (.error e, fs) => (.error e, fs)
      | (.ok _, fs) => match ask (r.mkdir dir) (fs.files.mkdir dir) with
        | .ok files => (.ok (), { fs with files })
        | .error e =>
          -- It may have been there all the time.
          if r.lstat dir = none ∧ fs.files.node dir = some .directory then (.ok (), fs)
          else (.error e, fs)

/-- The copy is taken away again if that works. -/
def discard (fs : Files String β) (r : Refusals β) (path : String) : Files String β :=
  match ask r.remove (fs.remove path) with
  | .ok fs => fs
  | .error _ => fs

def copyFile (fs : Linked String β) (r : Refusals β) (src dst : String) :
    Except String Unit × Linked String β :=
  let path := dst ++ ".partial"
  match ask r.openFile (fs.openFile locate src) with
  | .error e => (.error e, fs)
  | .ok input => match ask r.create (fs.create locate path) with
    | .error e => (.error e, fs)
    | .ok (out, fs) => match ask r.copy (fs.files.read input) with
      | .error e => (.error e, { fs with files := discard (fs.files.fill out r.left) r path })
      | .ok content => match r.close with
        | some e => (.error e, { fs with files := discard (fs.files.fill out r.left) r path })
        | none => match ask r.rename ((fs.files.fill out content).rename path dst) with
          | .error e => (.error e, { fs with files := fs.files.fill out content })
          | .ok files => (.ok (), { fs with files })

/-- A hard link if that works, and a copy otherwise. -/
def moveFile (fs : Linked String β) (r : Refusals β) (src dst : String) :
    Except String Unit × Linked String β :=
  match mkdirAll fs r (SlashPath.dir dst).chain with
  | (.error e, fs) => (.error e, fs)
  | (.ok _, fs) => match ask r.link (fs.files.link src dst) with
    | .ok files => (.ok (), { fs with files })
    | .error _ => copyFile fs r src dst

theorem ask_ok {α : Type} {refusal : Option String} {call : Except String α} {x : α}
    (h : ask refusal call = .ok x) : call = .ok x := by
  unfold ask at h
  split at h
  · cases h
  · exact h

section Directories
variable {fs fs' : Linked String β} {dirs : List String} {q : String}

/-- Directories are made of what is missing, and nothing else happens. -/
structure Grown (fs fs' : Linked String β) (dirs : List String) : Prop where
  nodes : ∀ q, fs'.files.node q = fs.files.node q ∨
    (q ∈ dirs ∧ fs.files.node q = none ∧ fs'.files.node q = some .directory)
  data : fs'.files.data = fs.files.data
  target : fs'.target = fs.target

theorem Grown.refl (fs : Linked String β) (dirs : List String) : Grown fs fs dirs :=
  ⟨fun _ => .inl rfl, rfl, rfl⟩

theorem Grown.weaken (h : Grown fs fs' dirs) (dir : String) : Grown fs fs' (dir :: dirs) := by
  refine ⟨fun q => ?_, h.data, h.target⟩
  rcases h.nodes q with hsame | ⟨hmem, hnew⟩
  · exact .inl hsame
  · exact .inr ⟨List.mem_cons_of_mem _ hmem, hnew⟩

theorem Grown.mkdir {dir : String} {files : Files String β} (h : Grown fs fs' dirs)
    (hmk : fs'.files.mkdir dir = .ok files) : Grown fs { fs' with files } (dir :: dirs) := by
  obtain ⟨hnone, hnode, hdata⟩ := Files.mkdir_ok hmk
  refine ⟨fun q => ?_, hdata.trans h.data, h.target⟩
  dsimp only
  rw [hnode]
  by_cases hq : q = dir
  · subst hq
    rw [Function.update_self]
    rcases h.nodes q with hsame | ⟨_, _, hmade⟩
    · exact .inr ⟨List.mem_cons_self, hsame ▸ hnone, rfl⟩
    · rw [hnone] at hmade
      cases hmade
  · rw [Function.update_of_ne hq]
    exact (h.weaken dir).nodes q

theorem mkdirAll_grown (fs : Linked String β) (r : Refusals β) (dirs : List String) :
    Grown fs (mkdirAll fs r dirs).2 dirs := by
  induction dirs with
  | nil => exact .refl fs []
  | cons dir above ih =>
    unfold mkdirAll
    split
    · exact .refl fs _
    · exact .refl fs _
    · split
      · rename_i e fs' hall
        rw [hall] at ih
        exact ih.weaken dir
      · rename_i fs' hall
        rw [hall] at ih
        split
        · rename_i files hmk
          exact ih.mkdir (ask_ok hmk)
        · split
          · exact ih.weaken dir
          · exact ih.weaken dir

theorem Grown.files (h : Grown fs fs' dirs) (q : String) (i : Nat)
    (hq : fs'.files.node q = some (.file i)) : fs.files.node q = some (.file i) := by
  rcases h.nodes q with hsame | ⟨_, _, hdir⟩
  · exact hsame ▸ hq
  · rw [hdir] at hq
    cases hq

theorem Grown.linkAt (h : Grown fs fs' dirs) : fs'.linkAt = fs.linkAt := by
  funext q
  rcases h.nodes q with hsame | ⟨_, hmissing, hdir⟩
  · exact Linked.linkAt_congr hsame (fun i _ => by rw [h.target])
  · simp [Linked.linkAt, hmissing, hdir]

/-- No file comes or goes. -/
theorem Grown.contents (h : Grown fs fs' dirs) (p : String) :
    fs'.contents locate p = fs.contents locate p := by
  refine Linked.contents_congr h.linkAt (fun q b _ => ?_)
  rcases h.nodes q with hsame | ⟨_, hmissing, hdir⟩
  · rw [Files.entry_congr hsame (fun i _ => by rw [h.data])]
  · simp [Files.entry, hmissing, hdir]

end Directories

theorem partial_ne (dst : String) : dst ≠ dst ++ ".partial" := by
  intro h
  have hlen := congrArg (fun name => name.toList.length) h
  simp at hlen

/-- What is beside the destination is no link and has no other name, neither the source nor the
destination leads there, and a source that is a symbolic link leads to a file, and to the same one
from the destination. -/
structure Apart (fs : Linked String β) (src dst : String) : Prop where
  only : fs.files.Only (dst ++ ".partial")
  plain : fs.linkAt (dst ++ ".partial") = none
  source : fs.resolve locate src ≠ .ok (dst ++ ".partial")
  destination : fs.resolve locate dst ≠ .ok (dst ++ ".partial")
  leads : ∀ t, fs.linkAt src = some t →
    locate src t = locate dst t ∧ fs.contents locate src ≠ none

/-- The destination, which was free, is another name of the source. -/
structure NewLink (fs fs' : Linked String β) (src dst : String) (i : Nat) : Prop where
  free : fs.files.node dst = none
  source : fs.files.node src = some (.file i)
  node : fs'.files.node = Function.update fs.files.node dst (some (.file i))
  data : fs'.files.data = fs.files.data
  target : fs'.target = fs.target

/-- What became of a transfer once the directories are there. -/
inductive Transferred (fs : Linked String β) (src dst : String) :
    Except String Unit × Linked String β → Prop
  | linked {fs' : Linked String β} {i : Nat} (h : NewLink fs fs' src dst i) :
      Transferred fs src dst (.ok (), fs')
  | copied {fs' : Linked String β} {b : List β} (hsrc : fs.contents locate src = some b)
      (hdst : fs'.files.entry dst = some (.bytes b)) (hplain : fs'.linkAt dst = none)
      (hlinks : ∀ q, q ≠ dst → fs'.linkAt q = fs.linkAt q)
      (hentries : ∀ q, q ≠ dst → q ≠ dst ++ ".partial" →
        fs'.files.entry q = fs.files.entry q) : Transferred fs src dst (.ok (), fs')
  | failed {fs' : Linked String β} {e : String} (hlinks : fs'.linkAt = fs.linkAt)
      (hentries : ∀ q, q ≠ dst ++ ".partial" → fs'.files.entry q = fs.files.entry q) :
      Transferred fs src dst (.error e, fs')

section Frames
variable {fs fs' : Linked String β} {r : Refusals β} {src dst path q : String} {b : List β}
  {out : Except String Unit × Linked String β}

theorem NewLink.linkAt (h : NewLink fs fs' src dst i) (hq : q ≠ dst) :
    fs'.linkAt q = fs.linkAt q :=
  Linked.linkAt_congr (by rw [h.node, Function.update_of_ne hq]) (fun _ _ => by rw [h.target])

theorem NewLink.entry (h : NewLink fs fs' src dst i) (hq : q ≠ dst) :
    fs'.files.entry q = fs.files.entry q :=
  Files.entry_congr (by rw [h.node, Function.update_of_ne hq]) (fun _ _ => by rw [h.data])

/-- No way to a file went over the name that was free. -/
theorem NewLink.follow (h : NewLink fs fs' src dst i)
    (hp : Linked.follow locate fs.linkAt n p = .ok q)
    (hb : fs.files.entry q = some (.bytes b)) :
    Linked.follow locate fs'.linkAt n p = .ok q ∧ fs'.files.entry q = some (.bytes b) := by
  have hq : q ≠ dst := by
    rintro rfl
    simp [Files.entry, h.free] at hb
  have hfree : fs.linkAt dst = none := by simp [Linked.linkAt, h.free]
  exact ⟨Linked.follow_congr (fun _ hx => h.linkAt hx) hfree hp hq, (h.entry hq).trans hb⟩

theorem NewLink.contents (h : NewLink fs fs' src dst i) (hp : fs.contents locate p = some b) :
    fs'.contents locate p = some b := by
  obtain ⟨q, hq, hb⟩ := Linked.contents_eq_some.mp hp
  exact Linked.contents_eq_some.mpr ⟨q, h.follow hq hb⟩

/-- What is read at both names is the same, over the same symbolic links if there are any. -/
theorem NewLink.read (h : NewLink fs fs' src dst i) (hapart : Apart fs src dst) :
    ∃ b, fs.contents locate src = some b ∧ fs'.contents locate dst = some b := by
  have hdst : fs'.files.node dst = some (.file i) := by rw [h.node, Function.update_self]
  have hlink : fs'.linkAt dst = fs.linkAt src := by
    rw [Linked.linkAt_file hdst, Linked.linkAt_file h.source, h.target]
  cases hsrc : fs.linkAt src with
  | none =>
    refine ⟨fs.files.data i, Linked.contents_plain hsrc (Files.entry_file h.source), ?_⟩
    rw [← h.data]
    exact Linked.contents_plain (hlink.trans hsrc) (Files.entry_file hdst)
  | some t =>
    obtain ⟨hsame, hread⟩ := hapart.leads t hsrc
    obtain ⟨b, hb⟩ := Option.ne_none_iff_exists'.mp hread
    refine ⟨b, hb, ?_⟩
    obtain ⟨q, hq, hentry⟩ := Linked.contents_eq_some.mp hb
    rw [Linked.resolve, Linked.follow_some hsrc, hsame] at hq
    refine Linked.contents_eq_some.mpr ⟨q, ?_, (h.follow hq hentry).2⟩
    rw [Linked.resolve, Linked.follow_some (hlink.trans hsrc)]
    exact (h.follow hq hentry).1

theorem Transferred.others (h : Transferred fs src dst out) (hd : q ≠ dst)
    (hp : q ≠ dst ++ ".partial") :
    out.2.linkAt q = fs.linkAt q ∧ out.2.files.entry q = fs.files.entry q := by
  cases h with
  | linked h => exact ⟨h.linkAt hd, h.entry hd⟩
  | copied _ _ _ hlinks hentries => exact ⟨hlinks q hd, hentries q hd hp⟩
  | failed hlinks hentries => exact ⟨congrFun hlinks q, hentries q hp⟩

/-- The destination is read as the source was, or it is as before. -/
theorem Transferred.destination (h : Transferred fs src dst out) (hapart : Apart fs src dst) :
    (out.1 = .ok () ∧ ∃ b, fs.contents locate src = some b ∧ out.2.contents locate dst = some b) ∨
      ((∃ e, out.1 = .error e) ∧ out.2.entry dst = fs.entry dst ∧
        out.2.contents locate dst = fs.contents locate dst) := by
  cases h with
  | linked h => exact .inl ⟨rfl, h.read hapart⟩
  | @copied fs' b hsrc hdst hplain _ _ =>
    exact .inl ⟨rfl, b, hsrc, Linked.contents_plain hplain hdst⟩
  | @failed fs' e hlinks hentries =>
    refine .inr ⟨⟨e, rfl⟩, ?_, ?_⟩
    · exact Linked.entry_congr (congrFun hlinks dst) (hentries dst (partial_ne dst))
    · refine Linked.contents_congr hlinks (fun q b hq => ?_)
      rw [hentries q (fun he => hapart.destination (he ▸ hq))]

/-- The source is read as before, even if it leads to the destination. -/
theorem Transferred.source (h : Transferred fs src dst out) (hapart : Apart fs src dst)
    (hb : fs.contents locate src = some b) : out.2.contents locate src = some b := by
  obtain ⟨q, hq, hentry⟩ := Linked.contents_eq_some.mp hb
  have hbeside : q ≠ dst ++ ".partial" := fun he => hapart.source (he ▸ hq)
  cases h with
  | linked h => exact h.contents hb
  | @copied fs' c hsrc hdst hplain hlinks hentries =>
    have hc : c = b := Option.some.inj (hsrc.symm.trans hb)
    subst hc
    rcases Linked.follow_cut hlinks hplain hq with hsame | hcut
    · refine Linked.contents_eq_some.mpr ⟨q, hsame, ?_⟩
      by_cases hqd : q = dst
      · exact hqd ▸ hdst
      · exact (hentries q hqd hbeside).trans hentry
    · exact Linked.contents_eq_some.mpr ⟨dst, hcut, hdst⟩
  | failed hlinks hentries =>
    rw [← hb]
    exact Linked.contents_congr hlinks (fun x _ hx => by
      rw [hentries x (fun he => hapart.source (he ▸ hx))])

end Frames

section Links

end Links

end Sonarr.FileTransfer
