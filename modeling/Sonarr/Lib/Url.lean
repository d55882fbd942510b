import Mathlib.Data.List.TakeWhile
import Sonarr.Lib.Text

/-! URLs as Go's `net/url` parses, resolves and writes them. Texts are lists of characters;
user information, bracketed hosts and percent-encoding in paths are left out and refused. -/
namespace Sonarr.Lib

structure Url where
  scheme : List Char
  host : List Char
  path : List Char
  forceQuery : Bool
  rawQuery : List Char
  fragment : List Char
  deriving DecidableEq, Repr

namespace Url

/-- What stands before the first `c`, and what after it. -/
def cut (c : Char) (s : List Char) : List Char × List Char :=
  (s.takeWhile (fun d => d != c), (s.dropWhile (fun d => d != c)).tail)

def isControl (c : Char) : Bool := c.toNat < 32 || c.toNat == 127

def schemeChar (c : Char) : Bool := c.isAlphanum || c == '+' || c == '-' || c == '.'

/-- The scheme, if there is one, and the rest. A colon at the beginning is an error. -/
def getScheme (s : List Char) : Option (List Char × List Char) :=
  match s.takeWhile schemeChar, s.dropWhile schemeChar with
  | [], ':' :: _ => none
  | c :: head, ':' :: rest => if c.isAlpha then some (c :: head, rest) else some ([], s)
  | _, _ => some ([], s)

/-- A question mark at the end with nothing after it is kept as one. -/
def splitQuery (s : List Char) : Bool × List Char × List Char :=
  if s.getLast? = some '?' ∧ s.count '?' = 1 then (true, s.dropLast, [])
  else (false, cut '?' s)

def hostChar (c : Char) : Bool := c.isAlphanum || "-_.~!$&'()*+,;=:".toList.contains c

/-- What follows the last colon of a host is a port. -/
def validHost (host : List Char) : Bool :=
  host.all hostChar &&
    (!host.contains ':' || (host.reverse.takeWhile (fun c => c != ':')).all Char.isDigit)

def pathChar (c : Char) : Bool := c.isAlphanum || "-_.~$&+,/:;=@".toList.contains c

/-- The host and the path. -/
def getHierarchy (scheme rest : List Char) : Option (List Char × List Char) :=
  match rest with
  | '/' :: '/' :: authority =>
    if scheme = [] ∧ authority.head? = some '/' then
      if rest.all pathChar then some ([], rest) else none
    else
      let (host, path) := authority.span (fun c => c != '/')
      if validHost host && path.all pathChar then some (host, path) else none
  | '/' :: _ => if rest.all pathChar then some ([], rest) else none
  | _ =>
    if scheme ≠ [] then none
    else if (cut '/' rest).1.contains ':' then none
    else if rest.all pathChar then some ([], rest) else none

/-- `url.Parse`. -/
def parse (s : List Char) : Option Url :=
  if s.any isControl then none
  else do
    let (u, fragment) := cut '#' s
    let (scheme, rest) ← getScheme u
    let (forceQuery, rest, rawQuery) := splitQuery rest
    let (host, path) ← getHierarchy scheme rest
    some ⟨scheme.map Char.toLower, host, path, forceQuery, rawQuery, fragment⟩

def segments (path : List Char) : List (List Char) := Text.splitBy (fun c => c == '/') path

/-- The segments without `.` and `..`, of which the latter takes one back. -/
def keepSegments (parts : List (List Char)) : List (List Char) :=
  parts.foldl (fun kept part =>
    if part = ['.'] then kept else if part = ['.', '.'] then kept.dropLast else kept ++ [part]) []

/-- A path without dot segments, beginning with a slash. -/
def removeDots (full : List Char) : List Char :=
  if full = [] then []
  else
    let parts := segments full
    let joined := List.intercalate ['/'] (keepSegments parts)
    let joined := if parts.getLast? = some ['.'] ∨ parts.getLast? = some ['.', '.'] then
      joined ++ ['/'] else joined
    if joined.head? = some '/' then joined else '/' :: joined

def resolvePath (base ref : List Char) : List Char :=
  if ref = [] then removeDots base
  else if ref.head? = some '/' then removeDots ref
  else removeDots ((base.reverse.dropWhile (fun c => c != '/')).reverse ++ ref)

/-- `ResolveReference`. -/
def resolveReference (u ref : Url) : Url :=
  let scheme := if ref.scheme = [] then u.scheme else ref.scheme
  if ref.scheme ≠ [] ∨ ref.host ≠ [] then { ref with scheme, path := resolvePath ref.path [] }
  else if ref.path = [] ∧ ref.forceQuery = false ∧ ref.rawQuery = [] then
    { ref with
      scheme, host := u.host, path := resolvePath u.path ref.path, rawQuery := u.rawQuery
      fragment := if ref.fragment = [] then u.fragment else ref.fragment }
  else { ref with scheme, host := u.host, path := resolvePath u.path ref.path }

/-- `String`. -/
def render (u : Url) : List Char :=
  (if u.scheme = [] then [] else u.scheme ++ [':']) ++
  (if (u.scheme ≠ [] ∨ u.host ≠ []) ∧ (u.host ≠ [] ∨ u.path ≠ []) then '/' :: '/' :: u.host else []) ++
  (if u.host ≠ [] ∧ u.path ≠ [] ∧ u.path.head? ≠ some '/' then '/' :: u.path else u.path) ++
  (if u.forceQuery ∨ u.rawQuery ≠ [] then '?' :: u.rawQuery else []) ++
  (if u.fragment = [] then [] else '#' :: u.fragment)

def hexValue (c : Char) : Option Nat :=
  if c.isDigit then some (c.toNat - 48)
  else if 'a' ≤ c ∧ c ≤ 'f' then some (c.toNat - 87)
  else if 'A' ≤ c ∧ c ≤ 'F' then some (c.toNat - 55)
  else none

/-- `QueryUnescape`, byte by byte. -/
def unescape : List Char → Option (List Char)
  | [] => some []
  | '%' :: a :: b :: rest => do
    let x ← hexValue a
    let y ← hexValue b
    let s ← unescape rest
    some (Char.ofNat (16 * x + y) :: s)
  | c :: rest =>
    if c = '%' then none
    else (unescape rest).map (fun s => (if c = '+' then ' ' else c) :: s)

/-- A key and its value; pairs that cannot be read are passed over. -/
def getPair (part : List Char) : Option (List Char × List Char) :=
  if part = [] ∨ ';' ∈ part then none
  else do
    let (key, value) := cut '=' part
    let key ← unescape key
    let value ← unescape value
    some (key, value)

/-- `Query().Get`: the first value of a key, empty if it has none. -/
def queryGet (rawQuery key : List Char) : List Char :=
  let pairs := (Text.splitBy (fun c => c == '&') rawQuery).filterMap getPair
  ((pairs.find? (fun p => p.1 == key)).map Prod.snd).getD []

theorem cut_none (h : c ∉ s) : cut c s = (s, []) := by
  have hall : ∀ d ∈ s, (d != c) = true := by
    intro d hd
    have : d ≠ c := fun heq => h (heq ▸ hd)
    simpa using this
  rw [cut, List.takeWhile_eq_self_iff.mpr hall, List.dropWhile_eq_nil_iff.mpr hall]
  rfl

theorem cut_append (h : c ∉ s) (rest : List Char) : cut c (s ++ c :: rest) = (s, rest) := by
  have hall : ∀ d ∈ s, (d != c) = true := by
    intro d hd
    have : d ≠ c := fun heq => h (heq ▸ hd)
    simpa using this
  rw [cut, List.takeWhile_append_of_pos hall, List.dropWhile_append_of_pos hall]
  simp

/-- A query that is not empty ends where the URL ends. -/
theorem splitQuery_append (h : '?' ∉ s) (hq : q ≠ []) :
    splitQuery (s ++ '?' :: q) = (false, s, q) := by
  have hmarks : ¬ ((s ++ '?' :: q).getLast? = some '?' ∧ (s ++ '?' :: q).count '?' = 1) := by
    rintro ⟨hlast, hcount⟩
    rw [List.getLast?_append_of_ne_nil _ (by simp), List.getLast?_cons_of_ne_nil hq] at hlast
    have hmem : '?' ∈ q := List.mem_of_getLast? hlast
    have := List.count_pos_iff.mpr hmem
    simp at hcount
    omega
  rw [splitQuery, if_neg hmarks, cut_append h]

theorem splitQuery_none (h : '?' ∉ s) : splitQuery s = (false, s, []) := by
  have hmarks : ¬ (s.getLast? = some '?' ∧ s.count '?' = 1) := by
    rintro ⟨hlast, _⟩
    exact h (List.mem_of_getLast? hlast)
  rw [splitQuery, if_neg hmarks, cut_none h]

/-- Only the text up to the first colon decides about a scheme. -/
theorem getScheme_append {scheme rest : List Char} (h : getScheme s = some (scheme, rest))
    (hne : scheme ≠ []) (t : List Char) : getScheme (s ++ t) = some (scheme, rest ++ t) := by
  unfold getScheme at h
  split at h
  · cases h
  · rename_i c head rest' htake hdrop
    split at h
    · rename_i halpha
      cases h
      have hsplit : s = (c :: head) ++ ':' :: rest := by
        rw [← htake, ← hdrop, List.takeWhile_append_dropWhile]
      have hall : ∀ d ∈ c :: head, schemeChar d = true := by
        intro d hd
        rw [← htake] at hd
        exact List.mem_takeWhile_imp hd
      rw [getScheme, hsplit, List.append_assoc, List.takeWhile_append_of_pos hall,
        List.dropWhile_append_of_pos hall]
      have hcolon : schemeChar ':' = false := by decide
      simp [hcolon, halpha]
    · cases h
      exact absurd rfl hne
  · cases h
    exact absurd rfl hne

theorem getScheme_subset {scheme rest : List Char} (h : getScheme s = some (scheme, rest)) :
    ∀ c ∈ rest, c ∈ s := by
  unfold getScheme at h
  split at h
  · cases h
  · rename_i c head rest' htake hdrop
    split at h
    · cases h
      intro d hd
      rw [← List.takeWhile_append_dropWhile (p := schemeChar) (l := s), hdrop]
      simp [hd]
    · cases h
      exact fun _ hd => hd
  · cases h
    exact fun _ hd => hd

/-- Characters that mean nothing in a query. -/
def plainChar (c : Char) : Bool := c.isAlphanum || "-_.~/:".toList.contains c

/-- An absolute URL without query and fragment, with a path to which a reference with only a
query can be resolved. -/
structure Plain (s : List Char) (u : Url) : Prop where
  chars : ∀ c ∈ s, plainChar c = true
  parsed : parse s = some u
  absolute : u.scheme ≠ []
  dotless : removeDots u.path = u.path
  rendered : u.render = s

theorem plainChar_spec (h : plainChar c = true) : c ≠ '#' ∧ c ≠ '?' ∧ c ≠ '&' ∧ c ≠ '=' ∧
    c ≠ ';' ∧ c ≠ '%' ∧ c ≠ '+' := by
  refine ⟨?_, ?_, ?_, ?_, ?_, ?_, ?_⟩ <;>
  · rintro rfl
    revert h
    decide

theorem isControl_of_plainChar (h : plainChar c = true) : isControl c = false := by
  have hcontrol : ∀ n < 128, isControl (Char.ofNat n) = true → plainChar (Char.ofNat n) = false := by
    decide +kernel
  by_contra hc
  rw [Bool.not_eq_false] at hc
  have hsmall : c.toNat < 128 := by
    simp only [isControl, Bool.or_eq_true, decide_eq_true_eq, beq_iff_eq] at hc
    omega
  have := hcontrol c.toNat hsmall
  rw [Char.ofNat_toNat] at this
  simp [this hc] at h

namespace Plain
variable {s : List Char} {u : Url}

theorem notMem (h : Plain s u) (hc : plainChar c = false) : c ∉ s := fun hmem => by
  simp [h.chars c hmem] at hc

theorem no_control (h : Plain s u) : s.any isControl = false := by
  simp only [List.any_eq_false, Bool.not_eq_true]
  exact fun c hc => isControl_of_plainChar (h.chars c hc)

/-- What parsing such a URL finds. -/
theorem parts (h : Plain s u) : ∃ scheme rest, getScheme s = some (scheme, rest) ∧ '?' ∉ rest ∧
    scheme ≠ [] ∧ getHierarchy scheme rest = some (u.host, u.path) ∧
    u = ⟨scheme.map Char.toLower, u.host, u.path, false, [], []⟩ := by
  have hp := h.parsed
  rw [parse, if_neg (by simp [h.no_control]), cut_none (h.notMem (by decide))] at hp
  simp only [Option.bind_eq_bind, Option.bind_eq_some_iff] at hp
  obtain ⟨⟨scheme, rest⟩, hscheme, ⟨host, path⟩, hhier, heq⟩ := hp
  have hrest : '?' ∉ rest := fun hmem =>
    h.notMem (c := '?') (by decide) (getScheme_subset hscheme _ hmem)
  simp only [splitQuery_none hrest, Option.some.injEq] at hhier heq
  subst heq
  refine ⟨scheme, rest, hscheme, hrest, ?_, hhier, rfl⟩
  rintro rfl
  exact h.absolute rfl

/-- A query put after it is found as it was put there. -/
theorem parse_query (h : Plain s u) (hq : q ≠ []) (hhash : '#' ∉ q)
    (hcontrol : q.any isControl = false) : parse (s ++ '?' :: q) = some { u with rawQuery := q } := by
  obtain ⟨scheme, rest, hscheme, hrest, hne, hhier, hu⟩ := h.parts
  have hany : (s ++ '?' :: q).any isControl = false := by
    rw [List.any_append, h.no_control, List.any_cons, hcontrol]
    decide
  have hfragment : '#' ∉ s ++ '?' :: q := by
    simp only [List.mem_append, List.mem_cons, not_or]
    exact ⟨h.notMem (by decide), by decide, hhash⟩
  rw [parse, if_neg (by simp [hany]), cut_none hfragment]
  simp only [getScheme_append hscheme hne, splitQuery_append hrest hq, hhier, Option.bind_eq_bind,
    Option.bind_some]
  rw [hu]

/-- A reference with nothing but a query. -/
theorem parse_reference (hq : q ≠ []) (hhash : '#' ∉ q) (hcontrol : q.any isControl = false) :
    parse ('?' :: q) = some ⟨[], [], [], false, q, []⟩ := by
  have hany : ('?' :: q).any isControl = false := by
    rw [List.any_cons, hcontrol]
    decide
  have hfragment : '#' ∉ '?' :: q := by
    simp only [List.mem_cons, not_or]
    exact ⟨by decide, hhash⟩
  have hscheme : getScheme ('?' :: q) = some ([], '?' :: q) := by
    have hmark : schemeChar '?' = false := by decide
    simp [getScheme, hmark]
  have hsplit : splitQuery ('?' :: q) = (false, [], q) := splitQuery_append (s := []) (by simp) hq
  rw [parse, if_neg (by simp [hany]), cut_none hfragment]
  simp only [hscheme, hsplit, Option.bind_eq_bind, Option.bind_some]
  rfl

/-- Resolving such a reference puts its query after the URL. -/
theorem resolve_render (h : Plain s u) (hq : q ≠ []) :
    (u.resolveReference ⟨[], [], [], false, q, []⟩).render = s ++ '?' :: q := by
  obtain ⟨scheme, rest, _, _, _, _, hu⟩ := h.parts
  have hforce : u.forceQuery = false := by rw [hu]
  have hempty : u.rawQuery = [] := by rw [hu]
  have hfragment : u.fragment = [] := by rw [hu]
  have hrendered := h.rendered
  simp only [render, hforce, hempty, hfragment] at hrendered
  simp only [resolveReference, resolvePath, h.dotless, hq, render]
  rw [← hrendered]
  simp [hq]

end Plain

theorem unescape_self (h : ∀ c ∈ s, c ≠ '%' ∧ c ≠ '+') : unescape s = some s := by
  induction s with
  | nil => rfl
  | cons c s ih =>
    obtain ⟨hpercent, hplus⟩ := h c (by simp)
    have hs := ih (fun d hd => h d (by simp [hd]))
    unfold unescape
    split
    · rename_i heq
      cases heq
    · rename_i heq
      cases heq
      exact absurd rfl hpercent
    · rename_i heq
      cases heq
      rw [if_neg hpercent, hs, if_neg hplus]
      rfl

/-- A query with one key, of characters that stand for themselves. -/
theorem queryGet_single {key value name : List Char} (heq : '=' ∉ key)
    (h : ∀ c ∈ key ++ '=' :: value, c ≠ '&' ∧ c ≠ ';' ∧ c ≠ '%' ∧ c ≠ '+') :
    queryGet (key ++ '=' :: value) name = if key = name then value else [] := by
  have hsplit : Text.splitBy (fun c => c == '&') (key ++ '=' :: value) = [key ++ '=' :: value] :=
    Text.splitBy_none (fun c hc => by simpa using (h c hc).1)
  have hkey : unescape key = some key :=
    unescape_self (fun c hc => (h c (by simp [hc])).2.2)
  have hvalue : unescape value = some value :=
    unescape_self (fun c hc => (h c (by simp [hc])).2.2)
  have hsemi : ';' ∉ key ++ '=' :: value := fun hmem => (h _ hmem).2.1 rfl
  have hpair : getPair (key ++ '=' :: value) = some (key, value) := by
    rw [getPair, if_neg (by simp only [not_or]; exact ⟨by simp, hsemi⟩), cut_append heq]
    simp only [hkey, hvalue, Option.bind_eq_bind, Option.bind_some]
  rw [queryGet, hsplit, List.filterMap_cons_some hpair, List.filterMap_nil]
  by_cases hname : key = name <;> simp [hname]

example : (parse "https://example.com/a/b?x=1".toList).map render =
    some "https://example.com/a/b?x=1".toList := by decide +kernel

end Url
end Sonarr.Lib
