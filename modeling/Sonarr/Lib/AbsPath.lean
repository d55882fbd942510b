import Mathlib.Data.List.Induction
import Sonarr.Lib.SlashPath

namespace Sonarr.Lib

/-- What `os.Getwd` returns when it does not fail. -/
structure WorkingDir where
  path : String
  rooted : Text.hasPrefix path "/" = true

namespace SlashPath

/-- An element of a cleaned path: the name of an entry, or `..`. -/
structure Part (e : String) : Prop where
  nonempty : e ≠ ""
  notDot : e ≠ "."
  noSlash : '/' ∉ e.toList

theorem Plain.part (h : Plain e) : Part e := ⟨h.nonempty, h.notDot, h.noSlash⟩

theorem splitBy_parts {p : Char → Bool} (l : List Char) :
    ∀ part ∈ Text.splitBy p l, ∀ c ∈ part, p c = false := by
  induction l with
  | nil => simp [Text.splitBy]
  | cons d ds ih =>
    unfold Text.splitBy
    split
    · rw [List.forall_mem_cons]
      exact ⟨fun c hc => absurd hc List.not_mem_nil, ih⟩
    · rename_i hd
      have hd : p d = false := by simpa using hd
      split
      · simp [hd]
      · rename_i part parts hparts
        rw [hparts, List.forall_mem_cons] at ih
        rw [List.forall_mem_cons, List.forall_mem_cons]
        exact ⟨⟨hd, ih.1⟩, ih.2⟩

theorem elements_noSlash (s : String) : ∀ e ∈ elements s, '/' ∉ e.toList := by
  intro e he hm
  obtain ⟨part, hpart, rfl⟩ := List.mem_map.mp he
  rw [String.toList_ofList] at hm
  have := splitBy_parts s.toList part hpart '/' hm
  simp at this

/-- What an element does to the parts: nothing, or it takes the last one back, or it is put behind. -/
theorem push_cases (rooted : Bool) (parts : List String) (e : String) :
    push rooted parts e = parts ∨ push rooted parts e = parts.dropLast ∨
      push rooted parts e = parts ++ [e] ∧ e ≠ "" ∧ e ≠ "." ∧
        (rooted = true → e ≠ ".." ∨ ".." ∈ parts) := by
  unfold push
  split
  · exact .inl rfl
  · rename_i hnot
    rw [not_or] at hnot
    split
    · rename_i hdots
      split
      · rename_i last hlast
        split
        · rename_i hl
          refine .inr (.inr ⟨by rw [hdots], hnot.1, hnot.2, fun _ => .inr ?_⟩)
          rw [← hl]
          exact List.mem_of_getLast? hlast
        · exact .inr (.inl rfl)
      · split
        · exact .inl rfl
        · rename_i hroot
          exact .inr (.inr ⟨by rw [hdots], hnot.1, hnot.2, fun h => absurd h hroot⟩)
    · rename_i hdots
      exact .inr (.inr ⟨rfl, hnot.1, hnot.2, fun _ => .inl hdots⟩)

theorem foldl_push_parts {rooted : Bool} {es parts : List String} (hes : ∀ e ∈ es, '/' ∉ e.toList)
    (h : ∀ x ∈ parts, Part x) : ∀ x ∈ es.foldl (push rooted) parts, Part x := by
  induction es generalizing parts with
  | nil => exact h
  | cons e es ih =>
    rw [List.forall_mem_cons] at hes
    apply ih hes.2
    intro x hx
    rcases push_cases rooted parts e with hp | hp | ⟨hp, hne, hdot, _⟩ <;> rw [hp] at hx
    · exact h x hx
    · exact h x ((List.dropLast_sublist parts).subset hx)
    · rcases List.mem_append.mp hx with hx | hx
      · exact h x hx
      · rw [List.mem_singleton.mp hx]
        exact ⟨hne, hdot, hes.1⟩

/-- Below a root every part is the name of an entry. -/
theorem foldl_push_plain {es parts : List String} (hes : ∀ e ∈ es, '/' ∉ e.toList)
    (h : ∀ x ∈ parts, Plain x) : ∀ x ∈ es.foldl (push true) parts, Plain x := by
  induction es generalizing parts with
  | nil => exact h
  | cons e es ih =>
    rw [List.forall_mem_cons] at hes
    apply ih hes.2
    intro x hx
    rcases push_cases true parts e with hp | hp | ⟨hp, hne, hdot, hdots⟩ <;> rw [hp] at hx
    · exact h x hx
    · exact h x ((List.dropLast_sublist parts).subset hx)
    · rcases List.mem_append.mp hx with hx | hx
      · exact h x hx
      · rw [List.mem_singleton.mp hx]
        rcases hdots rfl with hd | hd
        · exact ⟨hne, hdot, hd, hes.1⟩
        · exact absurd rfl (h _ hd).notDots

theorem clean_parts (s : String) : ∀ x ∈ (clean s).parts, Part x :=
  foldl_push_parts (elements_noSlash s) (fun _ hx => absurd hx List.not_mem_nil)

theorem foldl_push_of_plain {rooted : Bool} {es : List String} (hes : ∀ e ∈ es, Plain e)
    (parts : List String) : es.foldl (push rooted) parts = parts ++ es := by
  induction es generalizing parts with
  | nil => simp
  | cons e es ih =>
    rw [List.forall_mem_cons] at hes
    rw [List.foldl_cons, push_plain hes.1, ih hes.2, List.append_assoc]
    rfl

theorem push_dots {parts : List String} (hl : last ≠ "..") (rooted : Bool) :
    push rooted (parts ++ [last]) ".." = parts := by
  simp [push, hl]

/-- Elements can be cleaned before they are put below a root. -/
theorem foldl_push_clean {es : List String} (hes : ∀ e ∈ es, '/' ∉ e.toList) (base : List String) :
    (es.foldl (push false) []).foldl (push true) base = es.foldl (push true) base := by
  induction es using List.reverseRecOn with
  | nil => rfl
  | append_singleton es e ih =>
    have hbefore : ∀ x ∈ es, '/' ∉ x.toList := fun x hx => hes x (by simp [hx])
    have hparts : ∀ x ∈ es.foldl (push false) [], Part x :=
      foldl_push_parts hbefore (fun _ hx => absurd hx List.not_mem_nil)
    rw [List.foldl_append, List.foldl_append, List.foldl_cons, List.foldl_nil, List.foldl_cons,
      List.foldl_nil, ← ih hbefore]
    generalize es.foldl (push false) [] = ps at hparts
    by_cases hskip : e = "" ∨ e = "."
    · simp [push, hskip]
    · by_cases hdots : e = ".."
      · subst hdots
        rcases List.eq_nil_or_concat' ps with rfl | ⟨qs, last, rfl⟩
        · simp [push]
        · have hlast := hparts last (by simp)
          by_cases hl : last = ".."
          · have hp : push false (qs ++ [last]) ".." = qs ++ [last] ++ [".."] := by simp [push, hl]
            rw [hp, List.foldl_append]
            rfl
          · have hplain : Plain last := ⟨hlast.nonempty, hlast.notDot, hl, hlast.noSlash⟩
            rw [push_dots hl, List.foldl_append, List.foldl_cons, List.foldl_nil,
              push_plain hplain, push_dots hl]
      · have hp : push false ps e = ps ++ [e] := by simp [push, hskip, hdots]
        rw [hp, List.foldl_append]
        rfl

theorem elements_of_noSlash (h : '/' ∉ e.toList) : elements e = [e] := by
  have hnone : ∀ c ∈ e.toList, (c == '/') = false := by
    intro c hc
    rw [beq_eq_false_iff_ne]
    rintro rfl
    exact h hc
  unfold elements
  rw [Text.splitBy_none hnone]
  simp

theorem elements_join {parts : List String} (h : ∀ e ∈ parts, Part e) (hne : parts ≠ []) :
    elements (Text.join "/" parts) = parts := by
  induction parts with
  | nil => exact absurd rfl hne
  | cons e es ih =>
    rw [List.forall_mem_cons] at h
    cases es with
    | nil => exact elements_of_noSlash h.1.noSlash
    | cons f fs =>
      have hjoin : Text.join "/" (e :: f :: fs) = e ++ "/" ++ Text.join "/" (f :: fs) := rfl
      rw [hjoin, elements_append, elements_of_noSlash h.1.noSlash, ih h.2 (by simp)]
      rfl

/-- The elements of a path that is written out do what its parts do. -/
theorem foldl_push_render {p : SlashPath} (h : ∀ e ∈ p.parts, Part e) (rooted : Bool)
    (base : List String) :
    (elements p.render).foldl (push rooted) base = p.parts.foldl (push rooted) base := by
  unfold render
  by_cases hne : p.parts = []
  · rw [hne]
    split
    · simp [elements, Text.join, Text.splitBy, push]
    · simp [elements, Text.splitBy, push]
  · split
    · have hroot : elements ("/" ++ Text.join "/" p.parts) = "" :: p.parts := by
        have happend := elements_append "" (Text.join "/" p.parts)
        rw [String.empty_append, elements_join h hne] at happend
        exact happend
      rw [hroot, List.foldl_cons]
      simp [push]
    · rw [elements_join h hne]

/-- `filepath.Abs`, with the working directory. -/
def absolute (wd path : String) : SlashPath :=
  if Text.hasPrefix path "/" then clean path else join [wd, path]

/-- `filepath.Join`, as text. -/
def joinText (elems : List String) : String :=
  if elems.all (· = "") then "" else (join elems).render

theorem push_empty (rooted : Bool) (parts : List String) : push rooted parts "" = parts := by
  simp [push]

theorem hasPrefix_slash (h : '/' ∉ e.toList) : Text.hasPrefix e "/" = false := by
  unfold Text.hasPrefix
  have hsl : "/".toList = ['/'] := String.toList_ofList
  cases he : e.toList with
  | nil => rw [hsl]; rfl
  | cons c cs =>
    rw [he] at h
    have hc : '/' ≠ c := fun hc => h (hc ▸ List.mem_cons_self)
    simp [hsl, List.isPrefixOf, hc]

/-- A name joined to a directory is one more element. -/
theorem join_name (d : String) {name : String} (hname : '/' ∉ name.toList) :
    join [d, name] = ⟨Text.hasPrefix d "/",
      push (Text.hasPrefix d "/") ((elements d).foldl (push (Text.hasPrefix d "/")) []) name⟩ := by
  have hempty : elements "" = [""] := elements_of_noSlash (by simp)
  unfold join clean
  by_cases hd : d = "" <;> by_cases hn : name = ""
  · subst hd hn
    have hf : ["", ""].filter (fun e => e ≠ "") = [] := by simp
    have hr : Text.hasPrefix "" "/" = false := hasPrefix_slash hname
    rw [hf]
    simp [Text.join, hempty, hr, push_empty]
  · subst hd
    have hf : ["", name].filter (fun e => e ≠ "") = [name] := by simp [hn]
    have hr : Text.hasPrefix "" "/" = false := hasPrefix_slash (by simp)
    rw [hf]
    simp [Text.join, hempty, hr, hasPrefix_slash hname, elements_of_noSlash hname, push_empty]
  · subst hn
    have hf : [d, ""].filter (fun e => e ≠ "") = [d] := by simp [hd]
    rw [hf]
    simp [Text.join, push_empty]
  · have hf : [d, name].filter (fun e => e ≠ "") = [d, name] := by simp [hd, hn]
    have hj : Text.join "/" [d, name] = d ++ "/" ++ name := rfl
    have hr : Text.hasPrefix (d ++ "/" ++ name) "/" = Text.hasPrefix d "/" := by
      rw [String.append_assoc]
      exact rooted_append hd _
    rw [hf, hj]
    simp only [hr, elements_append, elements_of_noSlash hname, List.foldl_append, List.foldl_cons,
      List.foldl_nil]

theorem join_head (e : String) (es : List String) : ∃ t, Text.join "/" (e :: es) = e ++ t := by
  cases es with
  | nil => exact ⟨"", by simp [Text.join]⟩
  | cons f fs => exact ⟨"/" ++ Text.join "/" (f :: fs), by simp [Text.join, String.append_assoc]⟩

/-- A path that is written out is rooted when it is. -/
theorem rooted_render {p : SlashPath} (h : ∀ e ∈ p.parts, Part e) :
    Text.hasPrefix p.render "/" = p.rooted := by
  unfold render
  cases hr : p.rooted with
  | true =>
    rw [if_pos rfl, Text.hasPrefix_iff]
    exact ⟨_, rfl⟩
  | false =>
    simp only [Bool.false_eq_true, if_false]
    cases hp : p.parts with
    | nil => exact hasPrefix_slash (by decide)
    | cons e es =>
      have he := h e (by simp [hp])
      obtain ⟨t, ht⟩ := join_head e es
      rw [if_neg (by simp), ht, rooted_append he.nonempty, hasPrefix_slash he.noSlash]

theorem joinText_eq (h : ¬ (d = "" ∧ name = "")) : joinText [d, name] = (join [d, name]).render := by
  apply if_neg
  simpa using h

theorem foldl_push_name (d name : String) (rooted : Bool) (parts : List String) :
    (elements d ++ [name]).foldl (push rooted) parts =
      push rooted ((elements d).foldl (push rooted) parts) name := by
  rw [List.foldl_append]
  rfl

theorem elements_name_noSlash (d : String) (hname : '/' ∉ name.toList) :
    ∀ e ∈ elements d ++ [name], '/' ∉ e.toList := by
  intro e he
  rcases List.mem_append.mp he with he | he
  · exact elements_noSlash d e he
  · rwa [List.mem_singleton.mp he]

theorem join_name_parts (d : String) (hname : '/' ∉ name.toList) :
    ∀ e ∈ (join [d, name]).parts, Part e := by
  rw [join_name d hname, ← foldl_push_name]
  exact foldl_push_parts (elements_name_noSlash d hname) (fun _ he => absurd he List.not_mem_nil)

theorem rooted_joinText (d : String) (hname : '/' ∉ name.toList) :
    Text.hasPrefix (joinText [d, name]) "/" = Text.hasPrefix d "/" := by
  by_cases hall : d = "" ∧ name = ""
  · obtain ⟨rfl, rfl⟩ := hall
    rfl
  · rw [joinText_eq hall, rooted_render (join_name_parts d hname), join_name d hname]

/-- An absolute path starts at the root or at the working directory. -/
def base (wd path : String) : List String :=
  if Text.hasPrefix path "/" then [] else (clean wd).parts

theorem absolute_eq (hwd : Text.hasPrefix wd "/" = true) (path : String) :
    absolute wd path = ⟨true, (elements path).foldl (push true) (base wd path)⟩ := by
  unfold absolute base
  by_cases hr : Text.hasPrefix path "/" = true
  · rw [if_pos hr, if_pos hr]
    unfold clean
    rw [hr]
  · have hne : wd ≠ "" := by
      rintro rfl
      rw [hasPrefix_slash (by simp)] at hwd
      cases hwd
    rw [if_neg hr, if_neg hr]
    unfold join
    by_cases hp : path = ""
    · subst hp
      have hf : [wd, ""].filter (fun e => e ≠ "") = [wd] := by simp [hne]
      have hempty : elements "" = [""] := elements_of_noSlash (by simp)
      rw [hf, hempty]
      simp [Text.join, clean, hwd, push_empty]
    · have hf : [wd, path].filter (fun e => e ≠ "") = [wd, path] := by simp [hne, hp]
      have hj : Text.join "/" [wd, path] = wd ++ "/" ++ path := rfl
      have hroot : Text.hasPrefix (wd ++ "/" ++ path) "/" = true := by
        rw [String.append_assoc, rooted_append hne, hwd]
      rw [hf, hj]
      unfold clean
      simp only [hroot, hwd, elements_append, List.foldl_append]

theorem absolute_plain (hwd : Text.hasPrefix wd "/" = true) (path : String) :
    ∀ e ∈ (absolute wd path).parts, Plain e := by
  rw [absolute_eq hwd]
  apply foldl_push_plain (elements_noSlash path)
  unfold base
  split
  · exact fun _ he => absurd he List.not_mem_nil
  · unfold clean
    rw [hwd]
    exact foldl_push_plain (elements_noSlash wd) (fun _ he => absurd he List.not_mem_nil)

/-- Cleaning a path does not change where it leads. -/
theorem absolute_clean (hwd : Text.hasPrefix wd "/" = true) (s : String) :
    absolute wd (clean s).render = absolute wd s := by
  have hel := elements_noSlash s
  rw [absolute_eq hwd, absolute_eq hwd s]
  unfold base
  rw [rooted_render (clean_parts s), foldl_push_render (clean_parts s)]
  unfold clean
  cases hr : Text.hasPrefix s "/" with
  | true =>
    -- Below the root there is nothing left to clean.
    have hplain := foldl_push_plain hel (fun _ he => absurd he List.not_mem_nil)
    simp only [if_true]
    rw [foldl_push_of_plain hplain, List.nil_append]
  | false =>
    simp only [Bool.false_eq_true, if_false]
    rw [foldl_push_clean hel]

theorem absolute_append (hwd : Text.hasPrefix wd "/" = true) (hd : d ≠ "")
    (hname : '/' ∉ name.toList) :
    absolute wd (d ++ "/" ++ name) = ⟨true, push true (absolute wd d).parts name⟩ := by
  have hroot : Text.hasPrefix (d ++ "/" ++ name) "/" = Text.hasPrefix d "/" := by
    rw [String.append_assoc, rooted_append hd]
  rw [absolute_eq hwd, absolute_eq hwd d]
  unfold base
  rw [hroot, elements_append, elements_of_noSlash hname, foldl_push_name]

/-- Joining a name to a directory and making the path absolute adds the name to the
absolute directory. -/
theorem absolute_joinText (hwd : Text.hasPrefix wd "/" = true) (d : String)
    (hname : '/' ∉ name.toList) :
    absolute wd (joinText [d, name]) = ⟨true, push true (absolute wd d).parts name⟩ := by
  by_cases hall : d = "" ∧ name = ""
  · obtain ⟨rfl, rfl⟩ := hall
    rw [push_empty, show joinText ["", ""] = "" from rfl, absolute_eq hwd]
  rw [joinText_eq hall]
  show absolute wd (clean (Text.join "/" ([d, name].filter (fun e => e ≠ "")))).render = _
  rw [absolute_clean hwd]
  by_cases hd : d = ""
  · subst hd
    have hne : name ≠ "" := fun hne => hall ⟨rfl, hne⟩
    have hf : ["", name].filter (fun e => e ≠ "") = [name] := by simp [hne]
    have hempty : '/' ∉ "".toList := by simp
    rw [hf, show Text.join "/" [name] = name from rfl, absolute_eq hwd, absolute_eq hwd ""]
    unfold base
    rw [hasPrefix_slash hname, hasPrefix_slash hempty, elements_of_noSlash hname,
      elements_of_noSlash hempty]
    simp [push_empty]
  · by_cases hn : name = ""
    · subst hn
      have hf : [d, ""].filter (fun e => e ≠ "") = [d] := by simp [hd]
      rw [hf, show Text.join "/" [d] = d from rfl, push_empty, absolute_eq hwd]
    · have hf : [d, name].filter (fun e => e ≠ "") = [d, name] := by simp [hd, hn]
      rw [hf]
      exact absolute_append hwd hd hname

/-- An absolute path that is written out is itself. -/
theorem clean_render {parts : List String} (h : ∀ e ∈ parts, Plain e) :
    clean (render ⟨true, parts⟩) = ⟨true, parts⟩ := by
  have hparts : ∀ e ∈ (SlashPath.mk true parts).parts, Part e := fun e he => (h e he).part
  unfold clean
  rw [rooted_render hparts]
  simp only
  rw [foldl_push_render hparts, foldl_push_of_plain h, List.nil_append]

theorem join_concat {parts : List String} (hne : parts ≠ []) (name : String) :
    Text.join "/" (parts ++ [name]) = Text.join "/" parts ++ "/" ++ name := by
  induction parts with
  | nil => exact absurd rfl hne
  | cons e es ih =>
    cases es with
    | nil => rfl
    | cons f fs =>
      have hcons : Text.join "/" (e :: f :: fs) = e ++ "/" ++ Text.join "/" (f :: fs) := rfl
      have hcons' : Text.join "/" (e :: f :: (fs ++ [name])) =
          e ++ "/" ++ Text.join "/" (f :: (fs ++ [name])) := rfl
      have hrest : Text.join "/" (f :: (fs ++ [name])) = _ := ih (by simp)
      rw [List.cons_append, List.cons_append, hcons', hrest, hcons]
      simp only [String.append_assoc]

theorem render_child {parts : List String} (hne : parts ≠ []) (rooted : Bool) (name : String) :
    render ⟨rooted, parts ++ [name]⟩ = render ⟨rooted, parts⟩ ++ "/" ++ name := by
  unfold render
  cases rooted with
  | true => simp only [if_true, join_concat hne, String.append_assoc]
  | false => simp [join_concat hne, hne]

theorem ne_slash {name : String} (hname : '/' ∉ name.toList) :
    ∀ c ∈ name.toList.reverse, decide (c ≠ '/') = true := by
  intro c hc
  rw [decide_eq_true_eq]
  exact fun he => hname (he ▸ List.mem_reverse.mp hc)

/-- `filepath.Dir` cuts at the last slash. -/
theorem dir_append (s : String) (hname : '/' ∉ name.toList) :
    dir (s ++ "/" ++ name) = clean (s ++ "/") := by
  have hsl : "/".toList = ['/'] := String.toList_ofList
  unfold dir
  congr 1
  apply String.toList_injective
  rw [String.toList_ofList, String.toList_append, List.reverse_append, String.toList_append, hsl,
    List.reverse_append, List.dropWhile_append_of_pos (ne_slash hname)]
  simp

theorem dir_of_noSlash (hname : '/' ∉ name.toList) : dir name = ⟨false, []⟩ := by
  have hnil : (name.toList.reverse ++ []).dropWhile (fun c => decide (c ≠ '/')) = [] :=
    List.dropWhile_append_of_pos (ne_slash hname)
  unfold dir
  rw [List.append_nil] at hnil
  rw [hnil]
  rfl

theorem clean_slash (hs : s ≠ "") : clean (s ++ "/") = clean s := by
  have hempty : elements "" = [""] := elements_of_noSlash (by simp)
  have hel := elements_append s ""
  rw [String.append_empty, hempty] at hel
  unfold clean
  rw [rooted_append hs, hel]
  simp only [List.foldl_append, List.foldl_cons, List.foldl_nil, push_empty]

/-- The directory of a path that is written out. -/
theorem dir_render {parts : List String} (hparts : ∀ e ∈ parts, Part e) (rooted : Bool) (hname : '/' ∉ name.toList) :
    dir (render ⟨rooted, parts ++ [name]⟩) = clean (render ⟨rooted, parts⟩) := by
  by_cases hne : parts = []
  · subst hne
    cases rooted with
    | true => exact dir_append "" hname
    | false =>
      have hrender : render ⟨false, [] ++ [name]⟩ = name := by simp [render, Text.join]
      rw [hrender, dir_of_noSlash hname]
      rfl
  · have hrender : render ⟨rooted, parts⟩ ≠ "" := by
      intro hempty
      have hjoin : Text.join "/" parts = "" := by
        cases rooted with
        | true => simp [render] at hempty
        | false => simpa [render, hne] using hempty
      have hel := elements_join hparts hne
      rw [hjoin, elements_of_noSlash (by simp)] at hel
      exact (hparts "" (by simp [← hel])).nonempty rfl
    rw [render_child hne, dir_append _ hname, clean_slash hrender]

section Below

variable {l : List String}

/-- What is joined is written out between slashes and cleaned. -/
theorem joinText_clean (hl : ∃ e ∈ l, e ≠ "") : ∃ j, j ≠ "" ∧ joinText l = (clean j).render ∧
    ∀ name, Plain name → joinText (l ++ [name]) = (clean (j ++ "/" ++ name)).render := by
  have hall : l.all (· = "") = false := by
    rw [List.all_eq_false]
    obtain ⟨e, he, hne⟩ := hl
    exact ⟨e, he, by simpa using hne⟩
  have hfilter : l.filter (fun e => e ≠ "") ≠ [] := by
    obtain ⟨e, he, hne⟩ := hl
    exact List.ne_nil_of_mem (List.mem_filter.mpr ⟨he, by simpa using hne⟩)
  refine ⟨Text.join "/" (l.filter (fun e => e ≠ "")), ?_, ?_, ?_⟩
  · cases hf : l.filter (fun e => e ≠ "") with
    | nil => exact absurd hf hfilter
    | cons e es =>
      have hne : e ≠ "" := by
        have hmem : e ∈ l.filter (fun e => e ≠ "") := hf ▸ List.mem_cons_self
        simpa using (List.mem_filter.mp hmem).2
      obtain ⟨t, ht⟩ := join_head e es
      rw [ht]
      simp [hne]
  · unfold joinText
    rw [hall]
    rfl
  · intro name hname
    have hname' : [name].filter (fun e => e ≠ "") = [name] := by simp [hname.nonempty]
    unfold joinText
    rw [List.all_append, hall]
    show (join (l ++ [name])).render = _
    unfold join
    rw [List.filter_append, hname', join_concat hfilter]

/-- A name joined to other elements leads to one entry of what these lead to. -/
theorem absolute_joinText_name (hwd : Text.hasPrefix wd "/" = true) (hl : ∃ e ∈ l, e ≠ "")
    (hname : Plain name) : (absolute wd (joinText (l ++ [name]))).parts =
      (absolute wd (joinText l)).parts ++ [name] := by
  obtain ⟨j, hj, hl, hln⟩ := joinText_clean hl
  rw [hl, hln name hname, absolute_clean hwd, absolute_clean hwd, absolute_append hwd hj hname.noSlash]
  exact push_plain hname ..

theorem absolute_dir_joinText (hwd : Text.hasPrefix wd "/" = true) (hl : ∃ e ∈ l, e ≠ "")
    (hname : Plain name) :
    absolute wd (dir (joinText (l ++ [name]))).render = absolute wd (joinText l) := by
  obtain ⟨j, hj, hl, hln⟩ := joinText_clean hl
  have hclean : clean (j ++ "/" ++ name) = ⟨(clean j).rooted, (clean j).parts ++ [name]⟩ := by
    have hroot : Text.hasPrefix (j ++ "/" ++ name) "/" = Text.hasPrefix j "/" := by
      rw [String.append_assoc, rooted_append hj]
    unfold clean
    rw [hroot, elements_append, elements_plain hname]
    simp only [List.foldl_append, List.foldl_cons, List.foldl_nil, push_plain hname]
  rw [hl, hln name hname, hclean, dir_render (clean_parts j) _ hname.noSlash, absolute_clean hwd]

end Below

end SlashPath

end Sonarr.Lib
