import Mathlib.Data.List.DropRight
import Sonarr.Importer.DefaultNames
import Sonarr.Lib.FirstMatch
import Sonarr.Parser.WellFormed

namespace Sonarr.Organizer
open Lib Re Sonarr.Parser

section Numbers

theorem digit_twoDigits (n : Nat) : ∀ c ∈ (twoDigits n).toList, 48 ≤ c.toNat ∧ c.toNat ≤ 57 := by
  have hdigit : ∀ c ∈ Nat.toDigits 10 n, 48 ≤ c.toNat ∧ c.toNat ≤ 57 := by
    intro c hc
    exact Char.isDigit_iff_toNat.mp (Nat.isDigit_of_mem_toDigits (by decide) (by decide) hc)
  rw [twoDigits_toList]
  split
  · intro c hc
    rcases List.mem_cons.mp hc with rfl | hc
    · decide
    · exact hdigit c hc
  · exact hdigit

theorem length_twoDigits {n : Nat} (hk : 2 ≤ k) (hn : n < Nat.pow 10 k) :
    2 ≤ (twoDigits n).toList.length ∧ (twoDigits n).toList.length ≤ k := by
  have hle (m : Nat) (hm : 0 < m) : (Nat.toDigits 10 n).length ≤ m ↔ n < Nat.pow 10 m :=
    Nat.length_toDigits_le_iff (by decide) hm
  have hpos : 0 < (Nat.toDigits 10 n).length := Nat.length_toDigits_pos
  have hone : (Nat.toDigits 10 n).length ≤ 1 ↔ n < 10 := hle 1 (by decide)
  have hlong := (hle k (by omega)).mpr hn
  rw [twoDigits_toList]
  split
  · rw [List.length_cons]
    omega
  · omega

theorem atoi_twoDigits {n : Nat} (hn : n < 1000) : Text.atoi (twoDigits n) = some n := by
  have hlength := (length_twoDigits (k := 3) (by decide) hn).1
  have hvalue := value_twoDigits n
  have hread := Text.atoi_eq (digit_twoDigits n) (List.ne_nil_of_length_pos (by omega)) (by omega)
  rw [hread, hvalue]

end Numbers

section Pattern

/-- A separator with a season and an episode right after it. -/
def reToken : Re := seqs
  [separator, ichar 'S', between digit 1 2, ichar 'E', between digit 2 3]

/-- No part of the text can be read as a separator and an episode's token. -/
def NoToken (s : List Char) : Prop := ∀ w gs, Consumes reToken w gs → ¬ w <:+: s

/-- What the standard pattern has after its separators. -/
def reNumbers : Re := seqs
  [ichar 'S', .group "season" (between digit 1 2), ichar 'E',
    .group "episode" (between digit 2 3),
    many (.seq (many1 (.alt (char '-') (ichar 'E'))) (.group "episode2" (between digit 2 3)))]

theorem reStandard_eq : reStandard = .seq .textStart
    (.seq (.group "title" (lazy1 dot)) (.seq (many1 separator) reNumbers)) := rfl

theorem space_notMem_numbers (h : Consumes reNumbers t gs) : ' ' ∉ t := by
  intro hspace
  exact absurd (h.allowed ' ' hspace) (by decide)

/-- The last character of a token is a digit. -/
theorem token_ends (h : Consumes reToken w gs) :
    ∃ v d, w = v ++ [d] ∧ 48 ≤ d.toNat ∧ d.toNat ≤ 57 := by
  obtain ⟨sep, _, _, _, rfl, _, h⟩ := h.split
  obtain ⟨S, _, _, _, rfl, _, h⟩ := h.split
  obtain ⟨season, _, _, _, rfl, _, h⟩ := h.split
  obtain ⟨E, episode, _, _, rfl, _, h⟩ := h.split
  obtain ⟨hlow, _, hdigits⟩ := h.between (by decide)
  have hne : episode ≠ [] := List.ne_nil_of_length_pos (by omega)
  obtain ⟨v, d, rfl⟩ := (List.eq_nil_or_concat' episode).resolve_left hne
  refine ⟨sep ++ (S ++ (season ++ (E ++ v))), d, by simp, ?_⟩
  simpa using hdigits d (by simp)

/-- Numbers after a separator begin with a token. -/
theorem token_of_numbers (h : Consumes reNumbers t gs) (hc : separator.allows c = true) :
    ∃ tok, tok <+: t ∧ Consumes reToken (c :: tok) [] := by
  obtain ⟨S, _, _, _, rfl, hS, h⟩ := h.split
  obtain ⟨season, _, _, _, rfl, hseason, h⟩ := h.split
  obtain ⟨E, _, _, _, rfl, hE, h⟩ := h.split
  obtain ⟨episode, more, _, _, rfl, hepisode, _⟩ := h.split
  have hseason := (hseason.capture rfl).1
  have hepisode := (hepisode.capture rfl).1
  have hgS := hS.of_silent rfl
  have hgE := hE.of_silent rfl
  subst hgS hgE
  refine ⟨S ++ (season ++ (E ++ episode)), ⟨more, by simp⟩, ?_⟩
  exact (Consumes.set hc).seq (hS.seq (hseason.seq (hE.seq hepisode)))

/-- From a place inside a title there is no match: one that ended in the title would be a token of
it, and one that went beyond it would have only separators on the way. -/
theorem run_inside_title (hno : NoToken (u ++ (z ++ [' ']))) (hx : x ∈ u)
    (hsep : separator.allows x = false) (v : List Char) (prev : Option Char) :
    (Re.seq (many1 separator) reNumbers).run ⟨prev, u ++ ((z ++ [' ']) ++ v), gs⟩ = [] := by
  rw [List.eq_nil_iff_forall_not_mem]
  intro d hd
  obtain ⟨w, hs, hw, hrest, _⟩ := run_advances _ hd
  have hpre : w <+: (u ++ (z ++ [' '])) ++ v := ⟨d.rest, by rw [← hrest]; simp⟩
  obtain ⟨a, t, _, _, rfl, ha, ht⟩ := hw.split
  have hallowed : ∀ y ∈ a, separator.allows y = true := by
    intro y hy
    simpa [many1, allows] using ha.allowed y hy
  rcases List.prefix_or_prefix_of_prefix hpre (List.prefix_append _ v) with hin | hover
  · have hne : a ≠ [] := by
      obtain ⟨y, _, _, _, rfl, hfst, _⟩ := ha.split
      cases hfst
      simp
    obtain ⟨a', c, rfl⟩ := (List.eq_nil_or_concat' a).resolve_left hne
    obtain ⟨tok, ⟨rest, rfl⟩, htoken⟩ := token_of_numbers ht (hallowed c (by simp))
    refine hno _ _ htoken (List.IsInfix.trans ?_ hin.isInfix)
    exact ⟨a', rest, by simp⟩
  · -- the last space of the title is no part of the numbers, so all of it is separators
    have hall : u ++ (z ++ [' ']) <+: a := by
      rcases List.prefix_or_prefix_of_prefix hover (List.prefix_append a t) with h | h
      · exact h
      · obtain ⟨t', ht'⟩ := h
        rw [← ht', List.prefix_append_right_inj] at hover
        rcases List.eq_nil_or_concat' t' with rfl | ⟨t'', e, rfl⟩
        · rw [← ht', List.append_nil]
        · have he : e = ' ' := by
            have := congrArg List.getLast? ht'
            simpa using this
          subst he
          exact absurd (hover.subset (by simp)) (space_notMem_numbers ht)
    have hxa := hallowed x (hall.subset (List.mem_append_left _ hx))
    rw [hsep] at hxa
    cases hxa

/-- Numbers of the right length are read as they stand. -/
theorem firstGroups_numbers {z season episode : List Char}
    (hz : ∀ x ∈ z, separator.allows x = true) (hne : z ≠ [])
    (hseason : ∀ x ∈ season, digit.allows x = true) (hs : season.length = 2)
    (hepisode : ∀ x ∈ episode, digit.allows x = true) (hlow : 2 ≤ episode.length)
    (hhigh : episode.length ≤ 3) (prev : Option Char) (title rest : List Char) :
    (Re.seq (many1 separator) reNumbers).firstGroups
      ⟨prev, z ++ 'S' :: (season ++ 'E' :: (episode ++ ' ' :: rest)), [("title", title)]⟩ =
      some (groups [] episode season title) := by
  obtain ⟨p, hhead⟩ := head_many1 hz hne (head_false (y := 'S') rfl) prev
  refine firstGroups_seq_of_head hhead (firstGroups_seq_of_head rfl ?_)
  obtain ⟨p, hhead⟩ := head_between hseason (head_false (y := 'E') rfl) (m := 1) (by omega)
    (Nat.le_of_eq hs) (some 'S')
  refine firstGroups_seq_of_head (head_group hhead) (firstGroups_seq_of_head rfl ?_)
  obtain ⟨p, hhead⟩ := head_between hepisode (head_false (y := ' ') rfl) hlow hhigh (some 'E')
  refine firstGroups_seq_of_head (head_group hhead) ?_
  have hstop : (many (.seq (many1 (.alt (char '-') (ichar 'E')))
      (.group "episode2" (between digit 2 3)))).run ⟨p, ' ' :: rest,
        [("episode", episode), ("season", season), ("title", title)]⟩ =
      [⟨p, ' ' :: rest, [("episode", episode), ("season", season), ("title", title)]⟩] :=
    run_star_none rfl
  exact congrArg (fun l => (List.head? l).map Cursor.groups) hstop

end Pattern

section Titles

/-- A part that ends in a character which is not in the rest ends before the rest. -/
theorem infix_left {w : List Char} (h : w ++ [d] <:+: a ++ b) (hd : d ∉ b) : w ++ [d] <:+: a := by
  rcases List.infix_append_iff.mp h with h | h | ⟨l₁, l₂, hl, h₁, h₂⟩
  · exact h
  · exact absurd (h.subset (by simp)) hd
  · rcases List.eq_nil_or_concat' l₂ with rfl | ⟨l, e, rfl⟩
    · rw [hl, List.append_nil]
      exact h₁.isInfix
    · have he : d = e := by
        have hlast := congrArg List.getLast? hl
        simpa using hlast
      exact absurd (h₂.subset (by simp [he])) hd

theorem digit_not_space (hlow : 48 ≤ d.toNat) (hhigh : d.toNat ≤ 57) :
    Unicode.isSpace d = false := by
  unfold Unicode.isSpace
  simp
  omega

/-- Before the numbers stand the cleaned title, spaces and a dash. -/
theorem namePrefix_eq (title : String) : ∃ y, namePrefix title.toList =
    (cleanFilename title).toList ++ y ∧ ∀ c ∈ y, Unicode.isSpace c = true ∨ c = '-' := by
  have hdash : ∀ c ∈ " - ".toList, Unicode.isSpace c = true ∨ c = '-' := by
    simp
    decide
  rw [cleanFilename_toList]
  unfold namePrefix
  rw [List.dropWhile_append]
  split
  · rename_i hempty
    rw [List.isEmpty_iff] at hempty
    rw [hempty]
    refine ⟨" - ".toList.dropWhile Unicode.isSpace, rfl, ?_⟩
    intro c hc
    exact hdash c ((List.dropWhile_suffix _).subset hc)
  · refine ⟨(((title.toList.filter legal).dropWhile Unicode.isSpace).rtakeWhile Unicode.isSpace) ++
      " - ".toList, ?_, ?_⟩
    · rw [← List.append_assoc]
      congr 1
      exact List.rdropWhile_append_rtakeWhile.symm
    · intro c hc
      rcases List.mem_append.mp hc with hc | hc
      · exact .inl (List.mem_rtakeWhile_imp hc)
      · exact hdash c hc

theorem namePrefix_noToken (h : NoToken (cleanFilename title).toList) :
    NoToken (namePrefix title.toList) := by
  intro w gs hw hin
  obtain ⟨y, hy, hspaces⟩ := namePrefix_eq title
  obtain ⟨v, d, rfl, hlow, hhigh⟩ := token_ends hw
  rw [hy] at hin
  refine h _ _ hw (infix_left hin ?_)
  intro hd
  rcases hspaces d hd with hspace | rfl
  · simp [digit_not_space hlow hhigh] at hspace
  · exact absurd hlow (by decide)

theorem namePrefix_ends (title : List Char) :
    ∃ x m, namePrefix title = x :: (m ++ [' ']) := by
  have hsplit : title.filter legal ++ " - ".toList = (title.filter legal ++ [' ']) ++ ['-', ' '] := by
    simp
  unfold namePrefix
  rw [hsplit, List.dropWhile_append]
  split
  · exact ⟨'-', [], by decide⟩
  · cases ((title.filter legal ++ [' ']).dropWhile Unicode.isSpace) with
    | nil => exact ⟨'-', [], rfl⟩
    | cons x m => exact ⟨x, m ++ ['-'], by simp⟩

theorem namePrefix_newline {title : List Char} (h : '\n' ∉ title) : '\n' ∉ namePrefix title := by
  intro hmem
  have hsource := (List.dropWhile_suffix _).subset hmem
  rcases List.mem_append.mp hsource with hin | hin
  · exact h (List.mem_of_mem_filter hin)
  · exact absurd hin (by decide)

end Titles

/-- The default format's names are matched at the numbers that were put there. -/
theorem findSubmatch_default {name : String} {title season episode rest : List Char}
    (hname : name.toList = namePrefix title ++ 'S' :: (season ++ 'E' :: (episode ++ ' ' :: rest)))
    (hline : '\n' ∉ title) (hno : NoToken (namePrefix title))
    (hseason : ∀ x ∈ season, digit.allows x = true) (hs : season.length = 2)
    (hepisode : ∀ x ∈ episode, digit.allows x = true) (hlow : 2 ≤ episode.length)
    (hhigh : episode.length ≤ 3) :
    ∃ t, reStandard.findSubmatch name = some (groups [] episode season t) := by
  obtain ⟨x, m, hstarts⟩ := namePrefix_ends title
  have hline' := namePrefix_newline hline
  -- the title is all but the separators at its end
  have hsplit : m.rdropWhile separator.allows ++ m.rtakeWhile separator.allows = m :=
    List.rdropWhile_append_rtakeWhile
  generalize hu : m.rdropWhile separator.allows = u at hsplit
  generalize hz : m.rtakeWhile separator.allows = z at hsplit
  rw [hstarts, ← hsplit] at hname hno hline'
  refine ⟨x :: u, findSubmatch_of_first ?_⟩
  rw [reStandard_eq]
  refine firstGroups_seq_of_head rfl ?_
  have htext : name.toList = (x :: u) ++ ((z ++ [' ']) ++ 'S' ::
      (season ++ 'E' :: (episode ++ ' ' :: rest))) := by
    rw [hname]
    simp
  rw [htext]
  refine firstGroups_lazy (x :: u) _ (by simp) ?_ ?_ ?_
  · intro y hy
    have hne : y ≠ '\n' := by
      rintro rfl
      exact hline' (by simp at hy ⊢; tauto)
    simpa using hne
  · intro u₁ u₂ prev hcut hne₁ hne₂
    cases u₁ with
    | nil => exact absurd rfl hne₁
    | cons y u₁ =>
      obtain ⟨rfl, rfl⟩ := List.cons.inj hcut
      obtain ⟨u₂, e, rfl⟩ := (List.eq_nil_or_concat' u₂).resolve_left hne₂
      have hlast : separator.allows e = false := by
        have hnot := List.rdropWhile_last_not separator.allows m (by simp [hu])
        simpa [hu] using hnot
      refine run_inside_title ?_ (x := e) (by simp) hlast _ prev
      intro w gs hw hin
      exact hno w gs hw (hin.trans ⟨x :: u₁, [], by simp⟩)
  · intro prev
    refine firstGroups_numbers ?_ (by simp) hseason hs hepisode hlow hhigh prev _ rest
    intro y hy
    rcases List.mem_append.mp hy with hy | hy
    · rw [← hz] at hy
      exact List.mem_rtakeWhile_imp hy
    · rw [List.mem_singleton.mp hy]
      rfl

/-- A name in the default format is parsed back to the season and the episode it was built for. -/
theorem default_name_round_trip (info : EpisodeInfo) {s n : Nat} (hs : s ≤ 99) (hn : n ≤ 999)
    (hseason : info.seasonNumber = s) (hepisode : info.episodeNumber = n)
    (hT : '\x7b' ∉ info.seriesTitle.toList ∧ '\n' ∉ info.seriesTitle.toList)
    (hE : '\x7b' ∉ info.episodeTitle.toList) (hQ : '\x7b' ∉ info.qualityName.toList)
    (hno : NoToken (cleanFilename info.seriesTitle).toList) :
    (parseTitle (buildFilename defaultEpisodeFormat info)).seriesType = .standard ∧
      (parseTitle (buildFilename defaultEpisodeFormat info)).seasonNumber = s ∧
      (parseTitle (buildFilename defaultEpisodeFormat info)).episodeNumbers = [n] := by
  have hname := buildFilename_default (tokenless_of_open hT.1) (tokenless_of_open hE)
    (tokenless_of_open hQ)
  rw [hseason, hepisode] at hname
  have hdigits : ∀ k : Nat, ∀ x ∈ (twoDigits k).toList, digit.allows x = true := by
    intro k x hx
    simpa [digit, allows] using digit_twoDigits k x hx
  obtain ⟨hs₁, hs₂⟩ := length_twoDigits (n := s) (k := 2) (by decide) (Nat.lt_succ_of_le hs)
  obtain ⟨hn₁, hn₂⟩ := length_twoDigits (n := n) (k := 3) (by decide) (Nat.lt_succ_of_le hn)
  obtain ⟨t, hmatch⟩ := findSubmatch_default hname hT.2 (namePrefix_noToken hno) (hdigits s)
    (Nat.le_antisymm hs₂ hs₁) (hdigits n) hn₁ hn₂
  have hseasonOf : seasonOf (groups [] (twoDigits n).toList (twoDigits s).toList t) = s := by
    rw [seasonOf, field_groups_season, String.ofList_toList, atoi_twoDigits (by omega)]
    rfl
  have hfirst : firstOf (groups [] (twoDigits n).toList (twoDigits s).toList t) = n := by
    rw [firstOf, field_groups_episode, String.ofList_toList, atoi_twoDigits (by omega)]
    rfl
  have hexpanded : expandedOf (groups [] (twoDigits n).toList (twoDigits s).toList t) = [n] := by
    rw [expandedOf, furtherOf_groups, hfirst]
    rfl
  rw [parseTitle, parseStandard_match hmatch, hexpanded, hseasonOf]
  exact ⟨rfl, rfl, rfl⟩

def lostInfo : EpisodeInfo where
  seriesTitle := "Lost"
  seasonNumber := 4
  episodeNumber := 108
  episodeTitle := "The Constant"
  qualityName := "HDTV-720p"
  releaseGroup := ""
  airDate := ""

theorem lost_name_round_trip :
    (parseTitle (buildFilename defaultEpisodeFormat lostInfo)).seriesType = .standard ∧
      (parseTitle (buildFilename defaultEpisodeFormat lostInfo)).seasonNumber = 4 ∧
      (parseTitle (buildFilename defaultEpisodeFormat lostInfo)).episodeNumbers = [108] := by
  refine default_name_round_trip lostInfo (by decide) (by decide) rfl rfl (by decide) (by decide)
    (by decide) ?_
  intro w gs hw hin
  obtain ⟨v, d, rfl, hlow, hhigh⟩ := token_ends hw
  have hd : d ∈ (cleanFilename lostInfo.seriesTitle).toList := hin.subset (by simp)
  have hclean : (cleanFilename lostInfo.seriesTitle).toList = "Lost".toList := by decide +kernel
  have hletters : ("Lost".toList.all (fun c => 57 < c.toNat)) = true := by decide
  rw [hclean] at hd
  have := List.all_eq_true.mp hletters d hd
  simp at this
  omega

end Sonarr.Organizer
