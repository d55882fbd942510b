import Sonarr.Commands.RefreshSeries
import Sonarr.Lib.Civil
import Sonarr.Lib.Digits
import Sonarr.Lib.Url

namespace Sonarr.Tvdb
open Lib

structure Episode where
  id : Int
  seasonNumber : Int
  number : Int
  absoluteNumber : Int
  name : String
  overview : String
  aired : String
  deriving DecidableEq, Repr

/-- A page of episodes, decoded. -/
structure EpisodesResponse where
  episodes : List Episode
  next : Option String
  deriving DecidableEq, Repr

structure EpisodeInfo extends Commands.RefreshSeries.EpisodeInfo where
  tvdbID : Int
  deriving DecidableEq, Repr

/-- An absolute number of 0 and a date that cannot be read are absent. -/
def Episode.info (ep : Episode) : EpisodeInfo where
  tvdbID := ep.id
  seasonNumber := ep.seasonNumber
  episodeNumber := ep.number
  absoluteEpisodeNumber := if ep.absoluteNumber ≠ 0 then some ep.absoluteNumber else none
  title := ep.name
  overview := ep.overview
  airDate := if ep.aired ≠ "" then (Civil.parseDate ep.aired).map (fun t => t * 1000000000) else none

abbrev Server := Url → Except String EpisodesResponse

def defaultBaseURL : String := "https://api4.thetvdb.com"

def episodesURL (baseURL : String) (tvdbID : Int) : List Char :=
  (baseURL ++ "/v4/series/" ++ Text.decimal tvdbID ++ "/episodes/default").toList

/-- A request for a URL in its text. -/
def get (serve : Server) (rawURL : List Char) : Except String EpisodesResponse :=
  match Url.parse rawURL with
  | none => .error "tvdb: build request"
  | some u => serve u

/-- The URL of the next page; empty if there is none or it makes no URL. -/
def nextURL (base : List Char) (next : Option String) : List Char :=
  match next with
  | none => []
  | some link =>
    if link = "" then []
    else match Url.parse base, Url.parse ('?' :: link.toList) with
      | some parsed, some ref => (parsed.resolveReference ref).render
      | _, _ => []

/-- The loop of `GetEpisodes`: the pages so far, and the requests made for them. Without an
end in sight, `fuel` ends it. -/
def loop (serve : Server) (base : List Char) : Nat → List Char → List EpisodeInfo →
    List (List Char) → Option (Except String (List EpisodeInfo) × List (List Char))
  | 0, url, all, requests => if url = [] then some (.ok all, requests) else none
  | fuel + 1, url, all, requests =>
    if url = [] then some (.ok all, requests)
    else match get serve url with
      | .error e => some (.error e, requests ++ [url])
      | .ok resp =>
        loop serve base fuel (nextURL base resp.next) (all ++ resp.episodes.map Episode.info)
          (requests ++ [url])

def pageQuery (k : Nat) : List Char := "page=".toList ++ Nat.toDigits 10 k

def pageURL (base : List Char) (k : Nat) : List Char := base ++ '?' :: pageQuery k

/-- `Client.GetEpisodes`. -/
def getEpisodes (serve : Server) (base : List Char) (fuel : Nat) :
    Option (Except String (List EpisodeInfo) × List (List Char)) :=
  loop serve base fuel (pageURL base 0) [] []

/-- How a link names the page it leads to. -/
inductive LinkForm
  | relative
  | full
  deriving DecidableEq, Repr

def link (base : List Char) (k : Nat) : LinkForm → List Char
  | .relative => pageQuery k
  | .full => pageURL base k

/-- Pages with the form of the link to the next one, and what stands in its place at the end. -/
structure Pages where
  pages : List (List Episode × LinkForm)
  last : Option String
  nonempty : pages ≠ []
  ends : last = none ∨ last = some ""

def Pages.response (p : Pages) (base : List Char) (k : Nat) : Option EpisodesResponse :=
  p.pages[k]?.map (fun page =>
    ⟨page.1, if k + 1 < p.pages.length then some (String.ofList (link base (k + 1) page.2))
      else p.last⟩)

/-- The server answers with the page that the parameter names. What it answers to other
requests is its own affair. -/
def Serves (serve : Server) (base : List Char) (u : Url) (p : Pages) : Prop :=
  ∀ q k resp, Url.queryGet q "page".toList = Nat.toDigits 10 k → p.response base k = some resp →
    serve { u with rawQuery := q } = .ok resp

/-- All pages are fetched, with one request for each. -/
def FollowedToEnd (base : List Char) (u : Url) (p : Pages) : Prop :=
  ∀ serve, Serves serve base u p → ∃ fuel requests,
    getEpisodes serve base fuel =
      some (.ok (p.pages.flatMap (fun page => page.1.map Episode.info)), requests) ∧
    requests.length = p.pages.length

/-! ### Where the links lead -/

theorem digit_plain (h : c.isDigit = true) : Url.plainChar c = true := by
  rw [Url.plainChar, Char.isAlphanum, h, Bool.or_true, Bool.true_or]

/-- A page's query and URL hold only plain characters and three more. -/
theorem mem_pageURL (h : Url.Plain base u) (hc : c ∈ pageURL base k) :
    Url.plainChar c = true ∨ c = '?' ∨ c = '=' := by
  obtain hc | hc := List.mem_append.mp hc
  · exact .inl (h.chars c hc)
  · obtain rfl | hc := List.mem_cons.mp hc
    · exact .inr (.inl rfl)
    · obtain hc | hc := List.mem_append.mp hc
      · have hfixed : "page=".toList.all (fun d => Url.plainChar d || d == '=') = true := by decide
        have hchar := List.all_eq_true.mp hfixed c hc
        rw [Bool.or_eq_true, beq_iff_eq] at hchar
        exact hchar.imp_right .inr
      · exact .inl (digit_plain (Digits.isDigit_of_mem_toDigits hc))

theorem mem_link (hc : c ∈ link base k form) : c ∈ pageURL base k := by
  cases form with
  | relative => exact List.mem_append_right _ (List.mem_cons_of_mem _ hc)
  | full => exact hc

theorem pageURL_ne_nil : pageURL base k ≠ [] := by simp [pageURL]

theorem link_ne_nil : link base k form ≠ [] := by
  cases form with
  | relative => exact List.append_ne_nil_of_left_ne_nil (by decide) _
  | full => exact pageURL_ne_nil

theorem link_no_fragment (h : Url.Plain base u) : '#' ∉ link base k form := fun hc =>
  absurd (mem_pageURL h (mem_link hc)) (by decide)

theorem link_no_control (h : Url.Plain base u) : (link base k form).any Url.isControl = false := by
  simp only [List.any_eq_false, Bool.not_eq_true]
  intro c hc
  obtain hplain | rfl | rfl := mem_pageURL h (mem_link hc)
  · exact Url.isControl_of_plainChar hplain
  · decide
  · decide

/-- A link, whatever its form, is put after the question mark. -/
theorem nextURL_link (h : Url.Plain base u) (k : Nat) (form : LinkForm) :
    nextURL base (some (String.ofList (link base k form))) = base ++ '?' :: link base k form := by
  have hne : String.ofList (link base k form) ≠ "" := by
    intro hempty
    have := congrArg String.toList hempty
    rw [String.toList_ofList] at this
    exact link_ne_nil this
  simp only [nextURL, if_neg hne, h.parsed, String.toList_ofList,
    Url.Plain.parse_reference link_ne_nil (link_no_fragment h) (link_no_control h),
    h.resolve_render link_ne_nil]

theorem nextURL_last (p : Pages) : nextURL base p.last = [] := by
  obtain hlast | hlast := p.ends <;> rw [hlast] <;> rfl

theorem get_link (h : Url.Plain base u) (serve : Server) (k : Nat) (form : LinkForm) :
    get serve (base ++ '?' :: link base k form) =
      serve { u with rawQuery := link base k form } := by
  rw [get, h.parse_query link_ne_nil (link_no_fragment h) (link_no_control h)]

theorem separators_of_pageURL (h : Url.Plain base u) (hc : c ∈ pageURL base k) :
    c ≠ '&' ∧ c ≠ ';' ∧ c ≠ '%' ∧ c ≠ '+' := by
  obtain hplain | rfl | rfl := mem_pageURL h hc
  · obtain ⟨_, _, hamp, _, hsemi, hpercent, hplus⟩ := Url.plainChar_spec hplain
    exact ⟨hamp, hsemi, hpercent, hplus⟩
  · decide
  · decide

/-- The query a relative link makes names its page. -/
theorem queryGet_relative (h : Url.Plain base u) (k : Nat) :
    Url.queryGet (link base k .relative) "page".toList = Nat.toDigits 10 k := by
  have hquery : link base k .relative = "page".toList ++ '=' :: Nat.toDigits 10 k := rfl
  rw [hquery, Url.queryGet_single (by decide) (fun c hc => ?_), if_pos rfl]
  exact separators_of_pageURL h (mem_link (hquery ▸ hc))

/-- The query a full link makes names no page: the key has become the URL. -/
theorem queryGet_full (h : Url.Plain base u) (k : Nat) :
    Url.queryGet (link base k .full) "page".toList = [] := by
  have hquery : link base k .full =
      (base ++ '?' :: "page".toList) ++ '=' :: Nat.toDigits 10 k := by
    rw [List.append_assoc]
    rfl
  have hkey : '=' ∉ base ++ '?' :: "page".toList := by
    simp only [List.mem_append, not_or]
    exact ⟨h.notMem (by decide), by decide⟩
  have hlong : base ++ '?' :: "page".toList ≠ "page".toList := by
    intro heq
    have := congrArg List.length heq
    rw [List.length_append, List.length_cons] at this
    omega
  rw [hquery, Url.queryGet_single hkey (fun c hc => ?_), if_neg hlong]
  exact separators_of_pageURL h (hquery ▸ hc)

/-! ### The loop -/

/-- The page that a relative link leads to is added. -/
theorem loop_page (h : Url.Plain base u) (hs : Serves serve base u p)
    (hresp : p.response base k = some resp) :
    loop serve base (fuel + 1) (pageURL base k) all requests =
      loop serve base fuel (nextURL base resp.next) (all ++ resp.episodes.map Episode.info)
        (requests ++ [pageURL base k]) := by
  have hget : get serve (pageURL base k) = .ok resp :=
    (get_link h serve k .relative).trans (hs _ k resp (queryGet_relative h k) hresp)
  rw [loop, if_neg pageURL_ne_nil, hget]

theorem response_of_lt {p : Pages} (h : k < p.pages.length) (base : List Char) :
    p.response base k = some ⟨p.pages[k].1,
      if k + 1 < p.pages.length then some (String.ofList (link base (k + 1) p.pages[k].2))
      else p.last⟩ := by
  simp [Pages.response, List.getElem?_eq_getElem h]

/-- Every link but the last one is relative. -/
def Pages.Relative (p : Pages) : Prop :=
  ∀ k page, k + 1 < p.pages.length → p.pages[k]? = some page → page.2 = .relative

/-- From page `k` on, with `m` pages after it. -/
theorem loop_relative (h : Url.Plain base u) (hs : Serves serve base u p) (hrel : p.Relative)
    (m k : Nat) (hm : k + m + 1 = p.pages.length) (all : List EpisodeInfo)
    (requests : List (List Char)) : ∃ requests',
      loop serve base (m + 1) (pageURL base k) all requests =
        some (.ok (all ++ (p.pages.drop k).flatMap (fun page => page.1.map Episode.info)),
          requests') ∧
      requests'.length = requests.length + (m + 1) := by
  induction m generalizing k all requests with
  | zero =>
    have hk : k < p.pages.length := by omega
    have hlast : p.pages.drop k = [p.pages[k]] := by
      rw [List.drop_eq_getElem_cons hk, List.drop_of_length_le (by omega)]
    rw [loop_page h hs (response_of_lt hk base), if_neg (by omega), nextURL_last, hlast]
    exact ⟨requests ++ [pageURL base k], by simp [loop], by simp⟩
  | succ m ih =>
    have hk : k < p.pages.length := by omega
    have hform : p.pages[k].2 = .relative :=
      hrel k _ (by omega) (List.getElem?_eq_getElem hk)
    obtain ⟨requests', hloop, hlen⟩ := ih (k + 1) (by omega)
      (all ++ p.pages[k].1.map Episode.info) (requests ++ [pageURL base k])
    refine ⟨requests', ?_, by simpa [Nat.add_assoc, Nat.add_comm 1] using hlen⟩
    rw [loop_page h hs (response_of_lt hk base), if_pos (by omega), nextURL_link h, hform,
      List.drop_eq_getElem_cons hk, List.flatMap_cons, ← List.append_assoc]
    exact hloop

theorem followed_of_relative (h : Url.Plain base u) (hrel : p.Relative) :
    FollowedToEnd base u p := by
  intro serve hs
  have hpos := List.length_pos_of_ne_nil p.nonempty
  obtain ⟨requests, hloop, hlen⟩ := loop_relative h hs hrel (p.pages.length - 1) 0 (by omega) [] []
  refine ⟨_, requests, hloop.trans (by simp), ?_⟩
  simp at hlen
  omega

/-- A server that refuses requests for pages it does not have. -/
def strict (base : List Char) (p : Pages) : Server := fun url =>
  match (List.range p.pages.length).find? (fun k =>
      Nat.toDigits 10 k == Url.queryGet url.rawQuery "page".toList) with
  | none => .error "no such page"
  | some k => match p.response base k with
    | none => .error "no such page"
    | some resp => .ok resp

theorem find_page (hk : k < n) :
    (List.range n).find? (fun j => Nat.toDigits 10 j == Nat.toDigits 10 k) = some k := by
  obtain ⟨j, hj⟩ := Option.isSome_iff_exists.mp
    (List.find?_isSome (p := fun j => Nat.toDigits 10 j == Nat.toDigits 10 k).mpr
      ⟨k, List.mem_range.mpr hk, beq_self_eq_true _⟩)
  have heq : Nat.toDigits 10 j = Nat.toDigits 10 k := by
    simpa only [beq_iff_eq] using List.find?_some hj
  rw [hj, Text.toDigits_injective heq]

theorem strict_serves (base : List Char) (u : Url) (p : Pages) :
    Serves (strict base p) base u p := by
  intro q k resp hq hresp
  have hk : k < p.pages.length := by
    by_contra hle
    simp [Pages.response, List.getElem?_eq_none (Nat.not_lt.mp hle)] at hresp
  simp only [strict, hq, find_page hk, hresp]

/-- A full link makes the request for the next page one that names none. -/
theorem strict_refuses_full (h : Url.Plain base u) (p : Pages) (k : Nat) :
    get (strict base p) (base ++ '?' :: link base k .full) = .error "no such page" := by
  have hnone : (List.range p.pages.length).find? (fun j =>
      Nat.toDigits 10 j == ([] : List Char)) = none :=
    List.find?_eq_none.mpr (fun j _ => by simp [Nat.toDigits_ne_nil])
  rw [get_link h, strict]
  simp only [queryGet_full h, hnone]

/-- A page with a full link is not got past. -/
theorem loop_strict_full (h : Url.Plain base u) (hk : k + 1 < p.pages.length)
    (hfull : p.pages[k].2 = .full) (fuel : Nat) (all : List EpisodeInfo)
    (requests : List (List Char)) :
    loop (strict base p) base fuel (pageURL base k) all requests ≠ some (.ok r, requests') := by
  cases fuel with
  | zero => simp [loop, pageURL_ne_nil]
  | succ fuel =>
    rw [loop_page h (strict_serves base u p) (response_of_lt (by omega) base), if_pos hk,
      nextURL_link h, hfull]
    cases fuel with
    | zero => simp [loop]
    | succ fuel => simp [loop, strict_refuses_full h]

theorem loop_strict_fails (h : Url.Plain base u) (hk : k + 1 < p.pages.length)
    (hfull : p.pages[k].2 = .full) (m j : Nat) (hm : j + m = k) (fuel : Nat)
    (all : List EpisodeInfo) (requests : List (List Char)) :
    loop (strict base p) base fuel (pageURL base j) all requests ≠ some (.ok r, requests') := by
  induction m generalizing j fuel all requests with
  | zero =>
    subst hm
    exact loop_strict_full h hk hfull fuel all requests
  | succ m ih =>
    have hj : j + 1 < p.pages.length := by omega
    cases hform : p.pages[j].2 with
    | full => exact loop_strict_full h hj hform fuel all requests
    | relative =>
      cases fuel with
      | zero => simp [loop, pageURL_ne_nil]
      | succ fuel =>
        rw [loop_page h (strict_serves base u p) (response_of_lt (by omega) base), if_pos hj,
          nextURL_link h, hform]
        exact ih (j + 1) (by omega) fuel _ _

/-- The pages are followed to the end, by every server that serves them, exactly if the links
between them are relative. -/
theorem followed_iff_relative (baseURL : String) (tvdbID : Int) (u : Url)
    (h : Url.Plain (episodesURL baseURL tvdbID) u) (p : Pages) :
    FollowedToEnd (episodesURL baseURL tvdbID) u p ↔ p.Relative := by
  refine ⟨fun hall k page hk hpage => ?_, followed_of_relative h⟩
  by_contra hform
  obtain ⟨hlt, rfl⟩ := List.getElem?_eq_some_iff.mp hpage
  have hfull : p.pages[k].2 = .full := by
    cases hf : p.pages[k].2 with
    | relative => exact absurd hf hform
    | full => rfl
  obtain ⟨fuel, requests, hloop, _⟩ := hall _ (strict_serves _ u p)
  exact loop_strict_fails h hk hfull k 0 (Nat.zero_add k) fuel [] [] hloop

/-- A server that takes the first page when none is named. -/
def lenient (base : List Char) (p : Pages) : Server := fun url =>
  if Url.queryGet url.rawQuery "page".toList = [] then
    match p.response base 0 with
    | none => .error "no pages"
    | some resp => .ok resp
  else strict base p url

theorem lenient_serves (base : List Char) (u : Url) (p : Pages) :
    Serves (lenient base p) base u p := by
  intro q k resp hq hresp
  have hne : Url.queryGet q "page".toList ≠ [] := by
    rw [hq]
    exact Nat.toDigits_ne_nil
  simp only [lenient, if_neg hne, strict_serves base u p q k resp hq hresp]

/-- Behind a full link that server has the first page, which links there again. -/
theorem lenient_loops (h : Url.Plain base u) (hlen : 0 + 1 < p.pages.length)
    (hfull : p.pages[0].2 = .full) (fuel : Nat) : getEpisodes (lenient base p) base fuel = none := by
  have hresp := response_of_lt (p := p) (show 0 < p.pages.length by omega) base
  rw [if_pos hlen, hfull] at hresp
  have hget : get (lenient base p) (base ++ '?' :: link base (0 + 1) .full) =
      .ok ⟨p.pages[0].1, some (String.ofList (link base (0 + 1) .full))⟩ := by
    rw [get_link h, lenient]
    simp only [queryGet_full h, if_true, hresp]
  have hne : base ++ '?' :: link base (0 + 1) .full ≠ [] := by simp
  -- once there, each round ends where it began
  have hagain : ∀ fuel all requests, loop (lenient base p) base fuel
      (base ++ '?' :: link base (0 + 1) .full) all requests = none := by
    intro fuel
    induction fuel with
    | zero => simp [loop]
    | succ fuel ih =>
      intro all requests
      rw [loop, if_neg hne, hget]
      simp only [nextURL_link h, ih]
  cases fuel with
  | zero => simp [getEpisodes, loop, pageURL_ne_nil]
  | succ fuel => rw [getEpisodes, loop_page h (lenient_serves base u p) hresp, nextURL_link h, hagain]

def simpsons : List Char := episodesURL defaultBaseURL 71663

def simpsonsURL : Url where
  scheme := "https".toList
  host := "api4.thetvdb.com".toList
  path := "/v4/series/71663/episodes/default".toList
  forceQuery := false
  rawQuery := []
  fragment := []

theorem plain_simpsons : Url.Plain simpsons simpsonsURL where
  chars := List.all_eq_true.mp (by decide +kernel)
  parsed := by decide +kernel
  absolute := by decide
  dotless := by decide +kernel
  rendered := by decide +kernel

def pilot : Episode := ⟨123, 1, 1, 1, "Pilot", "The beginning.", "1989-12-17"⟩

def odyssey : Episode := ⟨125, 1, 3, 0, "Homer's Odyssey", "", "1990-01-21"⟩

/-- Two pages, with a link of either form between them. -/
def twoPages (form : LinkForm) : Pages :=
  ⟨[([pilot], form), ([odyssey], .relative)], none, by simp, .inl rfl⟩

theorem relative_followed : FollowedToEnd simpsons simpsonsURL (twoPages .relative) := by
  refine (followed_iff_relative defaultBaseURL 71663 simpsonsURL plain_simpsons _).mpr ?_
  intro k page hk hpage
  match k with
  | 0 =>
    cases hpage
    rfl
  | k + 1 =>
    have : k + 1 + 1 < 2 := hk
    omega

/-- With the full URL as the link, the first page is fetched for ever. -/
theorem full_link_never_ends : ∃ serve, Serves serve simpsons simpsonsURL (twoPages .full) ∧
    ∀ fuel, getEpisodes serve simpsons fuel = none :=
  ⟨lenient simpsons (twoPages .full), lenient_serves _ _ _,
    lenient_loops plain_simpsons (by decide) rfl⟩

end Sonarr.Tvdb
