import Sonarr.Lib.Text

namespace Sonarr.RemotePathMapping
open Lib

/-- What a mapping is looked up by. -/
structure Route where
  host : String
  remotePath : String
  deriving DecidableEq, Repr

structure Mapping extends Route where
  localPath : String
  deriving DecidableEq, Repr

def isSep (c : Char) : Bool := c == '/' || c == '\\'

def stripTrailingSep (p : String) : String :=
  if Text.hasSuffix p "/" || Text.hasSuffix p "\\" then String.ofList p.toList.dropLast else p

/-- The body of the loop in `Translate`, for a mapping of the host. -/
def rewrite (m : Mapping) (path : String) : Option String :=
  let rp := stripTrailingSep m.remotePath
  let lp := stripTrailingSep m.localPath
  if Text.equalFold m.remotePath path || Text.equalFold rp path then some m.localPath
  else if Text.hasPrefix path rp then
    match path.toList.drop rp.toList.length with
    | [] => some lp
    | c :: rest => if isSep c then some (lp ++ String.ofList (c :: rest)) else none
  else none

def translate (mappings : List Mapping) (host remotePath : String) : String :=
  if host = "" ∨ remotePath = "" then remotePath
  else (mappings.findSome? (fun m =>
    if Text.toLower m.host ≠ Text.toLower host then none else rewrite m remotePath)).getD remotePath

section Routes

variable {r : Route} {m : Mapping} {p path : String}

/-- The remote path itself, up to letter case and with or without its trailing separator. -/
def Route.Equal (r : Route) (path : String) : Prop :=
  Text.equalFold r.remotePath path = true ∨ Text.equalFold (stripTrailingSep r.remotePath) path = true

/-- A path below the remote path. -/
def Route.Below (r : Route) (path : String) : Prop :=
  ∃ c rest, isSep c = true ∧ path.toList = (stripTrailingSep r.remotePath).toList ++ c :: rest

def Route.Matches (r : Route) (path : String) : Prop := r.Equal path ∨ r.Below path

/-- A match with the same letters. -/
def Route.Literal (r : Route) (path : String) : Prop :=
  stripTrailingSep r.remotePath = path ∨ r.Below path

/-- The remote path is one below `p`, up to letter case. -/
def Route.Deeper (r : Route) (p : String) : Prop :=
  ∃ rest, rest ≠ "" ∧ Text.equalFold r.remotePath (p ++ "/" ++ rest) = true

def Route.Serves (r : Route) (host : String) : Prop :=
  host ≠ "" ∧ Text.toLower r.host = Text.toLower host

theorem hasSuffix_char (s : String) (c : Char) (hx : x.toList = [c]) :
    Text.hasSuffix s x = true ↔ s.toList.getLast? = some c := by
  unfold Text.hasSuffix
  rw [hx, List.isSuffixOf_iff_suffix, List.singleton_suffix_iff_getLast?_eq_some]

theorem strip_cases (s : String) : (stripTrailingSep s = s ∧ ∀ c ∈ s.toList.getLast?, isSep c = false) ∨
    ∃ c, isSep c = true ∧ s.toList = (stripTrailingSep s).toList ++ [c] := by
  have hslash := hasSuffix_char s '/' (x := "/") String.toList_ofList
  have hback := hasSuffix_char s '\\' (x := "\\") String.toList_ofList
  unfold stripTrailingSep
  split
  · rename_i h
    rw [Bool.or_eq_true, hslash, hback] at h
    have hlast : ∃ c, isSep c = true ∧ s.toList.getLast? = some c := by
      rcases h with h | h
      · exact ⟨'/', by decide, h⟩
      · exact ⟨'\\', by decide, h⟩
    obtain ⟨c, hc, hlast⟩ := hlast
    obtain ⟨init, hinit⟩ := List.getLast?_eq_some_iff.mp hlast
    refine .inr ⟨c, hc, ?_⟩
    rw [hinit, String.toList_ofList, List.dropLast_concat]
  · rename_i h
    rw [Bool.or_eq_true, hslash, hback, not_or] at h
    refine .inl ⟨rfl, ?_⟩
    intro c hc
    rw [Bool.eq_false_iff]
    intro hsep
    rcases Bool.or_eq_true_iff.mp hsep with he | he
    · exact h.1 (beq_iff_eq.mp he ▸ hc)
    · exact h.2 (beq_iff_eq.mp he ▸ hc)

theorem length_strip (s : String) : (stripTrailingSep s).toList.length ≤ s.toList.length ∧
    s.toList.length ≤ (stripTrailingSep s).toList.length + 1 := by
  rcases strip_cases s with ⟨h, -⟩ | ⟨c, -, h⟩
  · rw [h]
    omega
  · rw [h, List.length_append]
    simp

theorem length_of_equalFold (h : Text.equalFold s t = true) : s.toList.length = t.toList.length := by
  have hmap := congrArg List.length (beq_iff_eq.mp h)
  rwa [List.length_map, List.length_map] at hmap

theorem equalFold_of_toList (h : s.toList = t.toList) : Text.equalFold s t = true := by
  simp [Text.equalFold, h]

theorem Route.Literal.matches (h : r.Literal p) : r.Matches p := by
  rcases h with h | h
  · exact .inl (.inr (equalFold_of_toList (congrArg String.toList h)))
  · exact .inr h

/-- What matches a path is not much longer. -/
theorem Route.Matches.length_le (h : r.Matches p) : r.remotePath.toList.length ≤ p.toList.length + 1 := by
  have hstrip := length_strip r.remotePath
  rcases h with (h | h) | ⟨c, rest, -, h⟩
  · have := length_of_equalFold h
    omega
  · have := length_of_equalFold h
    omega
  · have := congrArg List.length h
    rw [List.length_append, List.length_cons] at this
    omega

theorem toList_deep (p rest : String) : (p ++ "/" ++ rest).toList = p.toList ++ '/' :: rest.toList := by
  simp

/-- So it is not the path of something below. -/
theorem Route.Matches.not_equal_deep (h : r.Matches p) (hrest : rest ≠ "") :
    ¬ r.Equal (p ++ "/" ++ rest) := by
  have hlen := h.length_le
  have hstrip := length_strip r.remotePath
  have hpos : 0 < rest.toList.length := by
    rw [List.length_pos_iff]
    simpa using hrest
  rintro (he | he)
  all_goals
    have := length_of_equalFold he
    rw [toList_deep, List.length_append, List.length_cons] at this
    omega

/-- Something below `p` is below the remote path when `p` is, or when the remote path is
itself below `p`. -/
theorem Route.Below.cases_deep (h : r.Below (p ++ "/" ++ rest)) :
    r.Literal p ∨ ∃ cs, (stripTrailingSep r.remotePath).toList = p.toList ++ '/' :: cs := by
  obtain ⟨c, rest', hc, h⟩ := h
  rw [toList_deep] at h
  rcases List.append_eq_append_iff.mp h.symm with ⟨a, hp, hr⟩ | ⟨a, hp, hr⟩
  · cases a with
    | nil => exact .inl (.inl (String.toList_injective (by rw [hp, List.append_nil])))
    | cons d a =>
      rw [List.cons_append, List.cons.injEq] at hr
      exact .inl (.inr ⟨d, a, hr.1 ▸ hc, hp⟩)
  · cases a with
    | nil => exact .inl (.inl (String.toList_injective (by rw [hp, List.append_nil])))
    | cons d a =>
      rw [List.cons_append, List.cons.injEq] at hr
      exact .inr ⟨a, hr.1 ▸ hp⟩

theorem deeper_of_strip (h : (stripTrailingSep r.remotePath).toList = p.toList ++ '/' :: cs) :
    r.Deeper p := by
  rcases strip_cases r.remotePath with ⟨hsame, hlast⟩ | ⟨c, -, hcut⟩
  · rw [hsame] at h
    have hcs : cs ≠ [] := by
      rintro rfl
      have hsep := hlast '/' (by rw [h]; simp)
      revert hsep
      decide
    exact ⟨String.ofList cs, by simpa using hcs, equalFold_of_toList (by rw [h, toList_deep, String.toList_ofList])⟩
  · refine ⟨String.ofList (cs ++ [c]), by simp, equalFold_of_toList ?_⟩
    rw [hcut, h, toList_deep, String.toList_ofList, List.append_assoc, List.cons_append]

/-- A route that misses `p` and does not lead below it misses all that is below. -/
theorem not_matches_deep (hp : ¬ r.Matches p) (hdeep : ¬ r.Deeper p) (hrest : rest ≠ "") :
    ¬ r.Matches (p ++ "/" ++ rest) := by
  rintro ((h | h) | h)
  · exact hdeep ⟨rest, hrest, h⟩
  · rcases strip_cases r.remotePath with ⟨hsame, -⟩ | ⟨c, -, hcut⟩
    · exact hdeep ⟨rest, hrest, hsame ▸ h⟩
    · refine hdeep ⟨rest ++ String.ofList [c], by simp, ?_⟩
      rw [Text.equalFold, beq_iff_eq] at h ⊢
      rw [hcut, List.map_append, h, ← String.append_assoc]
      simp
  · rcases h.cases_deep with h | ⟨cs, h⟩
    · exact hp h.matches
    · exact hdeep (deeper_of_strip h)

/-- A route that has `p` in other letters misses what is below. -/
theorem not_matches_of_other_case (h : r.Equal p) (hlit : ¬ r.Literal p) (hrest : rest ≠ "") :
    ¬ r.Matches (p ++ "/" ++ rest) := by
  have hstrip := length_strip r.remotePath
  have hlen : (stripTrailingSep r.remotePath).toList.length ≤ p.toList.length := by
    rcases h with h | h
    · have := length_of_equalFold h
      omega
    · exact Nat.le_of_eq (length_of_equalFold h)
  rintro (he | hb)
  · exact Route.Matches.not_equal_deep (.inl h) hrest he
  · rcases hb.cases_deep with hb | ⟨cs, hb⟩
    · exact hlit hb
    · rw [hb, List.length_append, List.length_cons] at hlen
      omega

theorem rewrite_equal (h : m.Equal path) : rewrite m path = some m.localPath := by
  unfold rewrite
  rw [if_pos]
  simpa [Route.Equal] using h

theorem rewrite_below (hne : ¬ m.Equal path)
    (h : path.toList = (stripTrailingSep m.remotePath).toList ++ c :: rest) (hc : isSep c = true) :
    rewrite m path = some (stripTrailingSep m.localPath ++ String.ofList (c :: rest)) := by
  have hpre : Text.hasPrefix path (stripTrailingSep m.remotePath) = true := by
    unfold Text.hasPrefix
    rw [h]
    simp
  unfold rewrite
  rw [if_neg (by simpa [Route.Equal] using hne), if_pos hpre, h, List.drop_left]
  exact if_pos hc

theorem rewrite_cases (h : m.Matches path) : (m.Equal path ∧ rewrite m path = some m.localPath) ∨
    ∃ c rest, path.toList = (stripTrailingSep m.remotePath).toList ++ c :: rest ∧
      rewrite m path = some (stripTrailingSep m.localPath ++ String.ofList (c :: rest)) := by
  by_cases he : m.Equal path
  · exact .inl ⟨he, rewrite_equal he⟩
  · obtain ⟨c, rest, hc, hpath⟩ := h.resolve_left he
    exact .inr ⟨c, rest, hpath, rewrite_below he hpath hc⟩

theorem rewrite_none (h : ¬ m.Matches path) : rewrite m path = none := by
  obtain ⟨hne, hbelow⟩ := not_or.mp h
  unfold rewrite
  rw [if_neg (by simpa [Route.Equal] using hne)]
  split
  · rename_i hpre
    obtain ⟨t, ht⟩ := Text.hasPrefix_iff.mp hpre
    have hlist : path.toList = (stripTrailingSep m.remotePath).toList ++ t.toList := by
      rw [ht, String.toList_append]
    rw [hlist, List.drop_left]
    cases htl : t.toList with
    | nil =>
      rw [htl, List.append_nil] at hlist
      refine absurd (.inr ?_) hne
      simp [Text.equalFold, hlist]
    | cons c rest =>
      refine if_neg (fun hc => hbelow ⟨c, rest, hc, ?_⟩)
      rw [hlist, htl]
  · rfl

end Routes

section Lists

variable {ms pre post : List Mapping} {m : Mapping} {host path p : String}

/-- Mappings that do not serve the host or do not match are passed over. -/
theorem findSome_none (h : ∀ m ∈ ms, m.Serves host → ¬ m.Matches path) (hhost : host ≠ "") :
    ms.findSome? (fun m => if Text.toLower m.host ≠ Text.toLower host then none
      else rewrite m path) = none := by
  rw [List.findSome?_eq_none_iff]
  intro m hm
  split
  · rfl
  · rename_i hserves
    exact rewrite_none (h m hm ⟨hhost, not_not.mp hserves⟩)

theorem translate_unmatched (h : ∀ m ∈ ms, m.Serves host → ¬ m.Matches path) :
    translate ms host path = path := by
  unfold translate
  split
  · rfl
  · rename_i hne
    rw [findSome_none h (not_or.mp hne).1]
    rfl

theorem translate_passed (hpre : ∀ m ∈ pre, m.Serves host → ¬ m.Matches path) :
    translate (pre ++ ms) host path = translate ms host path := by
  unfold translate
  split
  · rfl
  · rename_i hne
    rw [List.findSome?_append, findSome_none hpre (not_or.mp hne).1]
    rfl

theorem translate_first (hm : m.Serves host) (hpath : path ≠ "") (h : rewrite m path = some out) :
    translate (m :: ms) host path = out := by
  unfold translate
  rw [if_neg (not_or.mpr ⟨hm.1, hpath⟩), List.findSome?_cons, if_neg (not_not.mpr hm.2), h]
  rfl

/-- A path that is changed has a first mapping that matches it. -/
theorem exists_first (h : translate ms host path ≠ path) : path ≠ "" ∧ ∃ pre m post,
    ms = pre ++ m :: post ∧ m.Serves host ∧ m.Matches path ∧
      ∀ m' ∈ pre, m'.Serves host → ¬ m'.Matches path := by
  refine ⟨fun he => h (if_pos (.inr he)), ?_⟩
  induction ms with
  | nil => exact absurd (translate_unmatched (by simp)) h
  | cons m ms ih =>
    by_cases hm : m.Serves host ∧ m.Matches path
    · exact ⟨[], m, ms, rfl, hm.1, hm.2, by simp⟩
    · have hskip : ∀ m' ∈ [m], m'.Serves host → ¬ m'.Matches path := by
        intro m' hm' hs hmatch
        rw [List.mem_singleton.mp hm'] at hs hmatch
        exact hm ⟨hs, hmatch⟩
      have hpass : translate (m :: ms) host path = translate ms host path := translate_passed hskip
      obtain ⟨pre, m', post, rfl, hs, hmatch, hpre⟩ := ih (hpass ▸ h)
      refine ⟨m :: pre, m', post, rfl, hs, hmatch, ?_⟩
      rw [List.forall_mem_cons]
      exact ⟨hskip m (by simp), hpre⟩

/-- Mappings to the empty path do not make a path longer. -/
theorem length_translate_le (h : ∀ m ∈ ms, m.Serves host → m.Matches path → m.localPath = "") :
    (translate ms host path).toList.length ≤ path.toList.length := by
  by_cases hsame : translate ms host path = path
  · exact Nat.le_of_eq (by rw [hsame])
  · obtain ⟨hpath, pre, m, post, rfl, hs, hm, hpre⟩ := exists_first hsame
    have hlocal : m.localPath = "" := h m (by simp) hs hm
    rw [translate_passed hpre]
    rcases rewrite_cases hm with ⟨-, hout⟩ | ⟨c, rest, hlist, hout⟩
    · rw [translate_first hs hpath hout, hlocal]
      simp
    · have hempty : stripTrailingSep "" = "" := by decide
      rw [translate_first hs hpath hout, hlocal, hempty, hlist]
      simp

/-- What comes after a mapping that matches does not count. -/
theorem translate_found (h : ∃ m ∈ pre, m.Serves host ∧ m.Matches path) :
    translate (pre ++ ms) host path = translate pre host path := by
  obtain ⟨m, hm, hs, hmatch⟩ := h
  unfold translate
  split
  · rfl
  · rw [List.findSome?_append]
    cases hfound : pre.findSome? (fun m => if Text.toLower m.host ≠ Text.toLower host then none
        else rewrite m path) with
    | some out => rfl
    | none =>
      have hnone := List.findSome?_eq_none_iff.mp hfound m hm
      rw [if_neg (not_not.mpr hs.2)] at hnone
      rcases rewrite_cases hmatch with ⟨-, hout⟩ | ⟨c, rest, -, hout⟩
      · rw [hout] at hnone
        cases hnone
      · rw [hout] at hnone
        cases hnone

/-- What `Translate` does with `p` carries over to all that is below `p`. -/
def Compositional (ms : List Mapping) (host p : String) : Prop :=
  translate ms host p ≠ p → ∀ rest, rest ≠ "" →
    translate ms host (p ++ "/" ++ rest) = stripTrailingSep (translate ms host p) ++ "/" ++ rest

/-- The first route that matches `p` does so in the same letters, and none before it is to a
path below `p`. -/
def Coherent (routes : List Route) (host p : String) : Prop :=
  ∀ pre r post, routes = pre ++ r :: post → r.Serves host → r.Matches p →
    (∀ r' ∈ pre, r'.Serves host → ¬ r'.Matches p) →
    r.Literal p ∧ ∀ r' ∈ pre, r'.Serves host → ¬ r'.Deeper p

/-- A path that ends in no separator is not stripped. -/
theorem strip_append (hp : ∀ c ∈ p.toList.getLast?, isSep c = false) (hlist : p.toList = a ++ c :: rest)
    (s : String) : stripTrailingSep (s ++ String.ofList (c :: rest)) = s ++ String.ofList (c :: rest) := by
  rcases strip_cases (s ++ String.ofList (c :: rest)) with ⟨h, -⟩ | ⟨d, hd, h⟩
  · exact h
  · have hlast : p.toList.getLast? = (s ++ String.ofList (c :: rest)).toList.getLast? := by
      rw [hlist, String.toList_append, String.toList_ofList,
        List.getLast?_append_of_ne_nil _ (List.cons_ne_nil c rest),
        List.getLast?_append_of_ne_nil _ (List.cons_ne_nil c rest)]
    have hsep := hp d (by rw [hlast, h]; simp)
    rw [hd] at hsep
    cases hsep

theorem not_equal_of_below (hp : ∀ c ∈ p.toList.getLast?, isSep c = false)
    (hlist : p.toList = (stripTrailingSep m.remotePath).toList ++ c :: rest) (hc : isSep c = true) :
    ¬ m.Equal p := by
  have hstrip := length_strip m.remotePath
  have hlen := congrArg List.length hlist
  rw [List.length_append, List.length_cons] at hlen
  rintro (h | h)
  · have := length_of_equalFold h
    have hnil : rest = [] := List.eq_nil_of_length_eq_zero (by omega)
    have hsep := hp c (by rw [hlist, hnil]; simp)
    rw [hc] at hsep
    cases hsep
  · have := length_of_equalFold h
    omega

theorem compositional_of_coherent (hp : ∀ c ∈ p.toList.getLast?, isSep c = false)
    (h : p ≠ "" → Coherent (ms.map Mapping.toRoute) host p) : Compositional ms host p := by
  intro hne rest hrest
  obtain ⟨hpne, pre, m, post, rfl, hs, hm, hpre⟩ := exists_first hne
  obtain ⟨hlit, hdeep⟩ := h hpne (pre.map Mapping.toRoute) m.toRoute (post.map Mapping.toRoute)
    (by simp) hs hm (by simpa using hpre)
  have hpre' : ∀ m' ∈ pre, m'.Serves host → ¬ m'.Matches (p ++ "/" ++ rest) := fun m' hm' hs' =>
    not_matches_deep (hpre m' hm' hs') (hdeep m'.toRoute (List.mem_map_of_mem hm') hs') hrest
  have hxne : p ++ "/" ++ rest ≠ "" := by simp
  have hx := hm.not_equal_deep hrest
  rw [translate_passed hpre, translate_passed hpre']
  rcases hlit with hlit | ⟨c, rest', hc, hlist⟩
  · have hp' := rewrite_equal (m := m) (.inr (equalFold_of_toList (congrArg String.toList hlit)))
    have hx' := rewrite_below hx (by rw [toList_deep, hlit]) (by decide)
    rw [translate_first hs hpne hp', translate_first hs hxne hx']
    apply String.toList_injective
    simp
  · have hp' := rewrite_below (not_equal_of_below hp hlist hc) hlist hc
    have hlist' : (p ++ "/" ++ rest).toList =
        (stripTrailingSep m.remotePath).toList ++ c :: (rest' ++ '/' :: rest.toList) := by
      rw [toList_deep, hlist, List.append_assoc, List.cons_append]
    have hx' := rewrite_below hx hlist' hc
    rw [translate_first hs hpne hp', translate_first hs hxne hx', strip_append hp hlist]
    apply String.toList_injective
    simp

/-- Mappings along the routes, all to the empty path. -/
def blank (routes : List Route) : List Mapping := routes.map (fun r => ⟨r, ""⟩)

theorem routes_blank (routes : List Route) : (blank routes).map Mapping.toRoute = routes := by
  unfold blank
  rw [List.map_map]
  exact List.map_id routes

theorem blank_local (h : m ∈ blank routes) : m.localPath = "" ∧ m.toRoute ∈ routes := by
  obtain ⟨r, hr, rfl⟩ := List.mem_map.mp h
  exact ⟨rfl, hr⟩

/-- What a mapping makes of a path is hardly shorter than its local path. -/
theorem length_rewrite (hm : m.Matches path) :
    ∃ out, rewrite m path = some out ∧ m.localPath.toList.length ≤ out.toList.length + 1 := by
  have hstrip := length_strip m.localPath
  rcases rewrite_cases hm with ⟨-, hout⟩ | ⟨c, rest, -, hout⟩
  · exact ⟨_, hout, Nat.le_succ _⟩
  · refine ⟨_, hout, ?_⟩
    rw [String.toList_append, List.length_append]
    omega

section Necessary

variable {routes before after : List Route} {r : Route}

/-- With a long local path for `r` only, a translation that does not use `r` below `p` shows. -/
theorem long_translation (h : ∀ ms : List Mapping, ms.map Mapping.toRoute = before ++ r :: after →
      Compositional ms host p) (hpne : p ≠ "") (hs : r.Serves host) (hm : r.Matches p)
    (hbefore : ∀ r' ∈ before, r'.Serves host → ¬ r'.Matches p) (hrest : rest ≠ "") :
    ∃ long, (p ++ "/" ++ rest).toList.length <
      (translate (blank before ++ ⟨r, long⟩ :: blank after) host (p ++ "/" ++ rest)).toList.length := by
  have hlong : ∃ long : String, long.toList.length = (p ++ "/" ++ rest).toList.length + 2 :=
    ⟨p ++ "/" ++ rest ++ "zz", by simp only [String.toList_append, List.length_append]; rfl⟩
  obtain ⟨long, hlong⟩ := hlong
  refine ⟨long, ?_⟩
  obtain ⟨out, hout, hlen⟩ := length_rewrite (m := ⟨r, long⟩) hm
  have hp : translate (blank before ++ ⟨r, long⟩ :: blank after) host p = out := by
    have hpass : ∀ m ∈ blank before, m.Serves host → ¬ m.Matches p := fun m hmem =>
      hbefore m.toRoute (blank_local hmem).2
    rw [translate_passed hpass]
    exact translate_first (m := ⟨r, long⟩) hs hpne hout
  have hstrip := length_strip out
  simp only [toList_deep, List.length_append, List.length_cons] at hlong hlen ⊢
  have hne : out ≠ p := by
    rintro rfl
    omega
  have hroutes : (blank before ++ ⟨r, long⟩ :: blank after).map Mapping.toRoute =
      before ++ r :: after := by
    rw [List.map_append, List.map_cons, routes_blank, routes_blank]
  rw [h _ hroutes (by rw [hp]; exact hne) rest hrest, hp, toList_deep]
  simp only [List.length_append, List.length_cons]
  omega

theorem coherent_of_compositional (h : ∀ ms : List Mapping, ms.map Mapping.toRoute = routes →
    Compositional ms host p) (hpne : p ≠ "") : Coherent routes host p := by
  rintro before r after rfl hs hm hbefore
  constructor
  · by_contra hlit
    have hequal : r.Equal p := hm.resolve_right (fun hb => hlit (.inr hb))
    obtain ⟨long, hlong⟩ := long_translation h hpne hs hm hbefore (show "x" ≠ "" by decide)
    refine absurd (length_translate_le ?_) (Nat.not_le.mpr hlong)
    intro m hmem _ hmatch
    rcases List.mem_append.mp hmem with hmem | hmem
    · exact (blank_local hmem).1
    · rcases List.mem_cons.mp hmem with rfl | hmem
      · exact absurd hmatch (not_matches_of_other_case hequal hlit (by decide))
      · exact (blank_local hmem).1
  · rintro r' hr' hs' ⟨rest, hrest, hdeep⟩
    obtain ⟨long, hlong⟩ := long_translation h hpne hs hm hbefore hrest
    have hfound : ∃ m ∈ blank before, m.Serves host ∧ m.Matches (p ++ "/" ++ rest) :=
      ⟨⟨r', ""⟩, List.mem_map.mpr ⟨r', hr', rfl⟩, hs', .inl (.inl hdeep)⟩
    rw [translate_found hfound] at hlong
    refine absurd (length_translate_le ?_) (Nat.not_le.mpr hlong)
    intro m hmem _ _
    exact (blank_local hmem).1

end Necessary

/-- What `Translate` does with a directory carries over to all that is below it, whatever the local
paths are, when the routes are coherent there and only then; and a path that no mapping of the host
matches is returned as it is. -/
theorem translate_compositional_iff (routes : List Route) (host p : String)
    (hp : ∀ c ∈ p.toList.getLast?, isSep c = false) :
    ((∀ ms : List Mapping, ms.map Mapping.toRoute = routes → Compositional ms host p) ↔
      (p ≠ "" → Coherent routes host p)) ∧
    ∀ (ms : List Mapping) (path : String), (∀ m ∈ ms, m.Serves host → ¬ m.Equal path ∧ ¬ m.Below path) →
      translate ms host path = path := by
  refine ⟨⟨coherent_of_compositional, ?_⟩, ?_⟩
  · rintro h ms rfl
    exact compositional_of_coherent hp h
  · intro ms path h
    exact translate_unmatched (fun m hm hs => not_or.mpr (h m hm hs))

theorem translate_compositional_downloads :
    Compositional [⟨⟨"sab", "/downloads/"⟩, "/mnt/"⟩] "SAB" "/downloads" := by
  have hlast : "/downloads".toList.getLast? = some 's' := by decide +kernel
  have hp : ∀ c ∈ "/downloads".toList.getLast?, isSep c = false := by
    intro c hc
    rw [hlast] at hc
    cases hc
    rfl
  refine (translate_compositional_iff [⟨"sab", "/downloads/"⟩] _ _ hp).1.mpr ?_ _ rfl
  rintro - pre r post hroutes - - -
  cases pre with
  | nil =>
    rw [List.nil_append, List.cons.injEq] at hroutes
    rw [← hroutes.1]
    exact ⟨.inl (by decide), by simp⟩
  | cons r' pre => simp at hroutes

/-- A directory that is spelled with other letters is rewritten, and what is in it is not. -/
theorem translate_other_case :
    translate [⟨⟨"sab", "/downloads/"⟩, "/mnt/"⟩] "sab" "/Downloads" = "/mnt/" ∧
    translate [⟨⟨"sab", "/downloads/"⟩, "/mnt/"⟩] "sab" ("/Downloads" ++ "/" ++ "show") =
      "/Downloads/show" ∧
    stripTrailingSep "/mnt/" ++ "/" ++ "show" = "/mnt/show" := by
  decide +kernel

end Lists

end Sonarr.RemotePathMapping
