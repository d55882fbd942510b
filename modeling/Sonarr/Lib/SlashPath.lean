import Mathlib.Data.List.TakeWhile
import Sonarr.Lib.Text

namespace Sonarr.Lib

/-- A cleaned slash-separated path, as Go's `path/filepath` computes them. -/
structure SlashPath where
  rooted : Bool
  parts : List String
  deriving DecidableEq, Repr

namespace SlashPath

/-- What stands between the slashes. -/
def elements (s : String) : List String :=
  (Text.splitBy (fun c => c == '/') s.toList).map String.ofList

/-- One more element: empty ones and `.` are dropped, `..` takes back the last,
and above a root there is nothing. -/
def push (rooted : Bool) (parts : List String) (e : String) : List String :=
  if e = "" ∨ e = "." then parts
  else if e = ".." then
    match parts.getLast? with
    | some last => if last = ".." then parts ++ [".."] else parts.dropLast
    | none => if rooted then parts else parts ++ [".."]
  else parts ++ [e]

def clean (s : String) : SlashPath :=
  let rooted := Text.hasPrefix s "/"
  ⟨rooted, (elements s).foldl (push rooted) []⟩

def render (p : SlashPath) : String :=
  if p.rooted then "/" ++ Text.join "/" p.parts
  else if p.parts = [] then "." else Text.join "/" p.parts

/-- `filepath.Join` of elements that are not all empty. -/
def join (elems : List String) : SlashPath := clean (Text.join "/" (elems.filter (fun e => e ≠ "")))

/-- `filepath.Dir`: all but the last element. -/
def dir (s : String) : SlashPath :=
  clean (String.ofList (s.toList.reverse.dropWhile (fun c => c ≠ '/')).reverse)

/-- `filepath.Ext`: the last element from its last dot on. -/
def ext (s : String) : String :=
  let last := s.toList.reverse.takeWhile (fun c => c ≠ '/')
  if '.' ∈ last then String.ofList ('.' :: (last.takeWhile (fun c => c ≠ '.')).reverse) else ""

theorem ext_noSlash (name : String) : '/' ∉ (ext name).toList := by
  unfold ext
  simp only
  split
  · rw [String.toList_ofList, List.mem_cons, List.mem_reverse]
    rintro (h | h)
    · exact absurd h (by decide)
    · have hlast := (List.takeWhile_sublist _).mem h
      simpa using List.mem_takeWhile_imp hlast
  · simp

/-- A name's last part, from a dot on, is its extension. -/
theorem ext_append (s : String) (hx : x.toList = '.' :: cs) (hdot : '.' ∉ cs) (hslash : '/' ∉ cs) :
    ext (s ++ x) = x := by
  have hrev : (s ++ x).toList.reverse = cs.reverse ++ '.' :: s.toList.reverse := by
    simp [hx]
  have hall : ∀ c ∈ cs.reverse ++ ['.'], decide (c ≠ '/') = true := by
    intro c hc
    have hc' : c ∈ cs ∨ c = '.' := by simpa using hc
    rcases hc' with hc | rfl
    · simp only [decide_eq_true_eq]
      exact fun he => hslash (he ▸ hc)
    · decide
  have hlast : (s ++ x).toList.reverse.takeWhile (fun c => c ≠ '/') =
      cs.reverse ++ '.' :: s.toList.reverse.takeWhile (fun c => c ≠ '/') := by
    rw [hrev, List.append_cons, List.takeWhile_append_of_pos hall]
    simp
  have hname : (cs.reverse ++ '.' :: s.toList.reverse.takeWhile (fun c => c ≠ '/')).takeWhile
      (fun c => c ≠ '.') = cs.reverse := by
    rw [List.takeWhile_append_of_pos]
    · simp
    · intro c hc
      simp only [ne_eq, decide_not, Bool.not_eq_eq_eq_not, Bool.not_true, decide_eq_false_iff_not]
      exact fun he => hdot (he ▸ List.mem_reverse.mp hc)
  unfold ext
  simp only [hlast, hname]
  rw [if_pos (by simp), List.reverse_reverse, ← hx, String.ofList_toList]

/-- A path that leads into a directory. -/
def Under (dir p : SlashPath) : Prop :=
  p.rooted = dir.rooted ∧ ∃ rest, rest ≠ [] ∧ p.parts = dir.parts ++ rest

/-- An element that names an entry of its directory. -/
structure Plain (e : String) : Prop where
  nonempty : e ≠ ""
  notDot : e ≠ "."
  notDots : e ≠ ".."
  noSlash : '/' ∉ e.toList

theorem push_plain (h : Plain e) (rooted : Bool) (parts : List String) :
    push rooted parts e = parts ++ [e] := by
  simp [push, h.nonempty, h.notDot, h.notDots]

theorem elements_plain (h : Plain e) : elements e = [e] := by
  have hnone : ∀ c ∈ e.toList, (c == '/') = false := by
    intro c hc
    rw [beq_eq_false_iff_ne]
    rintro rfl
    exact h.noSlash hc
  unfold elements
  rw [Text.splitBy_none hnone]
  simp

theorem elements_append (a b : String) : elements (a ++ "/" ++ b) = elements a ++ elements b := by
  unfold elements
  have hl : (a ++ "/" ++ b).toList = a.toList ++ '/' :: b.toList := by simp
  rw [hl, Text.splitBy_append (by simp), List.map_append]

theorem plain_not_rooted (h : Plain e) (s : String) : Text.hasPrefix (e ++ s) "/" = false := by
  unfold Text.hasPrefix
  rw [String.toList_append]
  have hne : e.toList ≠ [] := by simpa using h.nonempty
  have hs := h.noSlash
  cases he : e.toList with
  | nil => exact absurd he hne
  | cons c cs =>
    rw [he] at hs
    have hc : '/' ≠ c := fun hc => hs (hc ▸ List.mem_cons_self)
    have hsl : "/".toList = ['/'] := rfl
    simp [hsl, List.isPrefixOf, hc]

theorem rooted_append (h : d ≠ "") (s : String) :
    Text.hasPrefix (d ++ s) "/" = Text.hasPrefix d "/" := by
  unfold Text.hasPrefix
  rw [String.toList_append]
  cases hd : d.toList with
  | nil => exact absurd (by simpa using hd) h
  | cons c cs =>
    have hsl : "/".toList = ['/'] := rfl
    simp [hsl, List.isPrefixOf]

/-- Two plain elements are joined as they are. -/
theorem join_plain (ha : Plain a) (hb : Plain b) : (join [a, b]).render = a ++ "/" ++ b := by
  have hf : [a, b].filter (fun e => e ≠ "") = [a, b] := by simp [ha.nonempty, hb.nonempty]
  have hr : Text.hasPrefix (a ++ "/" ++ b) "/" = false := by
    rw [String.append_assoc]
    exact plain_not_rooted ha _
  have hj : Text.join "/" [a, b] = a ++ "/" ++ b := rfl
  unfold join clean
  rw [hf, hj, hr, elements_append, elements_plain ha, elements_plain hb]
  simp [push_plain ha, push_plain hb, render, Text.join]

/-- Two plain elements joined to a directory are its last two. -/
theorem join_below (d : String) (ha : Plain a) (hb : Plain b) :
    join [d, a ++ "/" ++ b] = ⟨(clean d).rooted, (clean d).parts ++ [a, b]⟩ := by
  have hne : a ++ "/" ++ b ≠ "" := by simp
  have hel : elements (a ++ "/" ++ b) = [a, b] := by
    rw [elements_append, elements_plain ha, elements_plain hb]
    rfl
  have hr : Text.hasPrefix (a ++ "/" ++ b) "/" = false := by
    rw [String.append_assoc]
    exact plain_not_rooted ha _
  by_cases hd : d = ""
  · subst hd
    have hf : ["", a ++ "/" ++ b].filter (fun e => e ≠ "") = [a ++ "/" ++ b] := by simp
    unfold join clean
    rw [hf]
    simp only [Text.join, hr, hel, List.foldl_cons, List.foldl_nil, push_plain ha, push_plain hb]
    rfl
  · have hf : [d, a ++ "/" ++ b].filter (fun e => e ≠ "") = [d, a ++ "/" ++ b] := by
      simp [hd]
    have hj : Text.join "/" [d, a ++ "/" ++ b] = d ++ "/" ++ (a ++ "/" ++ b) := rfl
    have hrd : Text.hasPrefix (d ++ "/" ++ (a ++ "/" ++ b)) "/" = Text.hasPrefix d "/" := by
      rw [String.append_assoc]
      exact rooted_append hd _
    unfold join clean
    simp only [hf, hj, hrd, elements_append d, hel, List.foldl_append, List.foldl_cons,
      List.foldl_nil, push_plain ha, push_plain hb, List.append_assoc]
    rfl

/-- What is written before the last two elements does not depend on them. -/
theorem render_below (rooted : Bool) (parts : List String) :
    ∃ before, ∀ a b, render ⟨rooted, parts ++ [a, b]⟩ = before ++ (a ++ "/" ++ b) := by
  have hjoin : ∃ before, ∀ a b, Text.join "/" (parts ++ [a, b]) = before ++ (a ++ "/" ++ b) := by
    induction parts with
    | nil => exact ⟨"", fun a b => by simp [Text.join]⟩
    | cons p parts ih =>
      obtain ⟨before, hbefore⟩ := ih
      refine ⟨p ++ "/" ++ before, fun a b => ?_⟩
      have hcons : Text.join "/" (p :: (parts ++ [a, b])) =
          p ++ "/" ++ Text.join "/" (parts ++ [a, b]) := by
        cases parts <;> rfl
      rw [List.cons_append, hcons, hbefore]
      simp only [String.append_assoc]
  obtain ⟨before, hbefore⟩ := hjoin
  cases rooted with
  | true => exact ⟨"/" ++ before, fun a b => by simp [render, hbefore, String.append_assoc]⟩
  | false => exact ⟨before, fun a b => by simp [render, hbefore]⟩

/-- The directories on the way to a path and the path itself, the innermost first. -/
def chain (p : SlashPath) : List String :=
  (List.range p.parts.length).reverse.map (fun k => render ⟨p.rooted, p.parts.take (k + 1)⟩)

section Lengths

end Lengths

end SlashPath
end Sonarr.Lib
