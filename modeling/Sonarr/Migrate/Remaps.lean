import Sonarr.Lib.Selection
import Sonarr.Migrate.Run

namespace Sonarr.Migrate
open Lib

namespace PathRemap
variable (r : PathRemap) (path : String)

/-- The directory a rule is for: one trailing separator does not count. -/
def dir : String := Text.trimSuffix r.old "/"

/-- The rule's directory is the path, or holds it. -/
def applies : Bool := path == r.dir || Text.hasPrefix path (r.dir ++ "/")

/-- The new directory, joined with what the path has below the old one. -/
def joined : String :=
  if path = r.old ∨ path = r.dir then r.new
  else Text.trimSuffix r.new "/" ++ String.ofList (path.toList.drop r.dir.toList.length)

/-- What `remapPath` makes of a path that begins with the rule's text. -/
def rewritten : String := r.new ++ String.ofList (path.toList.drop r.old.toList.length)

/-- The path and the rule's text have to do with each other: either is the other's beginning,
up to a separator. -/
def touches : Bool := Text.hasPrefix path r.old || r.old == path ++ "/"

end PathRemap

/-- A path is rewritten only by a rule that applies, the first such rule gives the result, and no
rule takes two paths to one. -/
structure Respected (remaps : List PathRemap) (path : String) : Prop where
  only : remapPath remaps path ≠ path → ∃ r ∈ remaps, r.applies path = true
  first : ∀ r, remaps.find? (fun r => r.applies path) = some r →
    remapPath remaps path = r.joined path
  apart : ∀ r ∈ remaps, ∀ p q, Text.hasPrefix p r.old = true → Text.hasPrefix q r.old = true →
    remapPath [r] p = remapPath [r] q → p = q

/-- The same rules with other names for the new directories, closed by a separator or not as
before. -/
def Renamed (remaps remaps' : List PathRemap) : Prop :=
  List.Forall₂ (fun r r' => r'.old = r.old ∧
    Text.hasSuffix r'.new "/" = Text.hasSuffix r.new "/") remaps remaps'

/-- The first rule that touches the path is the path, or ends at one of its separators and is
closed by a separator on both sides or on neither. -/
def Fits (remaps : List PathRemap) (path : String) : Prop :=
  ∀ r, remaps.find? (fun r => r.touches path) = some r →
    path = r.old ∨ (Text.hasPrefix path (r.dir ++ "/") = true ∧
      Text.hasSuffix r.old "/" = Text.hasSuffix r.new "/")

section Rules
variable {r : PathRemap} {path : String}

theorem touches_of_starts (h : Text.hasPrefix path r.old = true) : r.touches path = true := by
  simp [PathRemap.touches, h]

theorem touches_of_applies (h : r.applies path = true) : r.touches path = true := by
  unfold PathRemap.applies at h
  unfold PathRemap.touches
  rw [Bool.or_eq_true, beq_iff_eq] at h ⊢
  cases hold : Text.hasSuffix r.old "/" with
  | true =>
    have hdir : r.old = r.dir ++ "/" := Text.trimSuffix_of_hasSuffix hold
    rcases h with h | h
    · exact .inr (h ▸ hdir)
    · exact .inl (hdir ▸ h)
  | false =>
    have hdir : r.dir = r.old := Text.trimSuffix_eq_self hold
    rw [hdir] at h
    left
    rcases h with h | h
    · exact Text.hasPrefix_iff.mpr ⟨"", by simp [h]⟩
    · obtain ⟨t, ht⟩ := Text.hasPrefix_iff.mp h
      exact Text.hasPrefix_iff.mpr ⟨"/" ++ t, by rw [ht, String.append_assoc]⟩

theorem prefix_of_below (h : Text.hasPrefix path (r.dir ++ "/") = true) :
    Text.hasPrefix path r.old = true := by
  obtain ⟨t, ht⟩ := Text.hasPrefix_iff.mp h
  apply Text.hasPrefix_iff.mpr
  cases hold : Text.hasSuffix r.old "/" with
  | true => exact ⟨t, (Text.trimSuffix_of_hasSuffix hold).symm ▸ ht⟩
  | false =>
    have hdir : r.dir = r.old := Text.trimSuffix_eq_self hold
    exact ⟨"/" ++ t, by rw [ht, hdir, String.append_assoc]⟩

theorem ne_of_length {s t : String} (h : s.toList.length ≠ t.toList.length) : s ≠ t :=
  fun he => h (by rw [he])

theorem drop_append (p t : String) :
    String.ofList ((p ++ t).toList.drop p.toList.length) = t := by
  simp

theorem rewritten_append (t : String) : r.rewritten (r.old ++ t) = r.new ++ t := by
  unfold PathRemap.rewritten
  rw [drop_append]

/-- A path below the rule's directory, other than the rule's text itself. -/
theorem joined_append (h : r.dir ++ "/" ++ t ≠ r.old) :
    r.joined (r.dir ++ "/" ++ t) = Text.trimSuffix r.new "/" ++ ("/" ++ t) := by
  have hdir : r.dir ++ "/" ++ t ≠ r.dir := ne_of_length (by simp)
  unfold PathRemap.joined
  rw [if_neg (by simp [h, hdir]), String.append_assoc, drop_append]

theorem joined_old : r.joined r.old = r.new := by
  simp [PathRemap.joined]

theorem applies_old : r.applies r.old = true := by
  unfold PathRemap.applies
  cases hold : Text.hasSuffix r.old "/" with
  | true =>
    have hdir : r.old = r.dir ++ "/" := Text.trimSuffix_of_hasSuffix hold
    rw [Bool.or_eq_true]
    exact .inr (Text.hasPrefix_iff.mpr ⟨"", by rw [← hdir]; simp⟩)
  | false =>
    have hdir : r.dir = r.old := Text.trimSuffix_eq_self hold
    simp [hdir]

theorem applies_of_below (h : Text.hasPrefix path (r.dir ++ "/") = true) :
    r.applies path = true := by
  simp [PathRemap.applies, h]

/-- Below its directory a rule rewrites as it should only if both of its sides are closed by a
separator, or neither. -/
theorem rewritten_eq_joined_iff (hbelow : Text.hasPrefix path (r.dir ++ "/") = true)
    (hne : path ≠ r.old) : r.rewritten path = r.joined path ↔
      Text.hasSuffix r.old "/" = Text.hasSuffix r.new "/" := by
  obtain ⟨t, rfl⟩ := Text.hasPrefix_iff.mp hbelow
  rw [joined_append hne]
  cases hold : Text.hasSuffix r.old "/" with
  | true =>
    have hdir : r.old = r.dir ++ "/" := Text.trimSuffix_of_hasSuffix hold
    rw [← hdir, rewritten_append]
    cases hnew : Text.hasSuffix r.new "/" with
    | true =>
      have hn : r.new = Text.trimSuffix r.new "/" ++ "/" := Text.trimSuffix_of_hasSuffix hnew
      rw [← String.append_assoc, ← hn]
      exact iff_of_true rfl rfl
    | false =>
      rw [Text.trimSuffix_eq_self hnew]
      exact iff_of_false (ne_of_length (by simp)) (by simp)
  | false =>
    have hdir : r.dir = r.old := Text.trimSuffix_eq_self hold
    rw [hdir, String.append_assoc, rewritten_append]
    cases hnew : Text.hasSuffix r.new "/" with
    | true =>
      have hn : r.new = Text.trimSuffix r.new "/" ++ "/" := Text.trimSuffix_of_hasSuffix hnew
      rw [← String.append_assoc, ← String.append_assoc, ← hn]
      exact iff_of_false (ne_of_length (by simp)) (by simp)
    | false =>
      rw [Text.trimSuffix_eq_self hnew]
      exact iff_of_true rfl rfl

theorem rewritten_injective (hp : Text.hasPrefix p r.old = true) (hq : Text.hasPrefix q r.old = true)
    (h : r.rewritten p = r.rewritten q) : p = q := by
  obtain ⟨s, rfl⟩ := Text.hasPrefix_iff.mp hp
  obtain ⟨t, rfl⟩ := Text.hasPrefix_iff.mp hq
  rw [rewritten_append, rewritten_append] at h
  have hst : s = t := by
    apply String.toList_injective
    simpa using congrArg String.toList h
  rw [hst]

end Rules

section Lists
variable {remaps : List PathRemap} {path : String}

theorem remapPath_some (h : remaps.find? (fun r => Text.hasPrefix path r.old) = some r) :
    remapPath remaps path = r.rewritten path := by
  simp [remapPath, h, PathRemap.rewritten]

theorem remapPath_none (h : remaps.find? (fun r => Text.hasPrefix path r.old) = none) :
    remapPath remaps path = path := by
  simp [remapPath, h]

theorem remap_apart : ∀ r ∈ remaps, ∀ p q, Text.hasPrefix p r.old = true →
    Text.hasPrefix q r.old = true → remapPath [r] p = remapPath [r] q → p = q := by
  intro r _ p q hp hq h
  have hone : ∀ s, Text.hasPrefix s r.old = true →
      [r].find? (fun r => Text.hasPrefix s r.old) = some r := by
    intro s hs
    simp [hs]
  rw [remapPath_some (hone p hp), remapPath_some (hone q hq)] at h
  exact rewritten_injective hp hq h

theorem fits_respected (h : Fits remaps path) : Respected remaps path := by
  cases htouch : remaps.find? (fun r => r.touches path) with
  | none =>
    have hnone : ∀ r ∈ remaps, r.touches path = false := by
      simpa using htouch
    have hstarts : remaps.find? (fun r => Text.hasPrefix path r.old) = none := by
      rw [List.find?_eq_none]
      intro r hr hp
      exact absurd (touches_of_starts hp) (by simp [hnone r hr])
    refine ⟨fun hne => absurd (remapPath_none hstarts) hne, ?_, remap_apart⟩
    intro r hr
    have happlies : r.applies path = true := by simpa using List.find?_some hr
    exact absurd (touches_of_applies happlies) (by simp [hnone r (List.mem_of_find?_eq_some hr)])
  | some r =>
    have hr := h r htouch
    have happlies : r.applies path = true := by
      rcases hr with rfl | hr
      · exact applies_old
      · exact applies_of_below hr.1
    have hstarts : Text.hasPrefix path r.old = true := by
      rcases hr with rfl | hr
      · exact Text.hasPrefix_iff.mpr ⟨"", by simp⟩
      · exact prefix_of_below hr.1
    have hused := find?_of_either (fun _ => touches_of_starts) htouch hstarts
    refine ⟨fun _ => ⟨r, List.mem_of_find?_eq_some htouch, happlies⟩, ?_, remap_apart⟩
    intro r' hr'
    rw [find?_of_either (fun _ => touches_of_applies) htouch happlies] at hr'
    cases hr'
    rw [remapPath_some hused]
    by_cases hold : path = r.old
    · subst hold
      have hself := rewritten_append (r := r) ""
      rw [joined_old]
      simpa using hself
    · obtain hold' | ⟨hbelow, hclosed⟩ := hr
      · exact absurd hold' hold
      · exact (rewritten_eq_joined_iff hbelow hold).mpr hclosed

theorem renamed_find? (hrenamed : Renamed remaps remaps') {p : PathRemap → Bool}
    (hp : ∀ r r', r'.old = r.old → p r' = p r) (h : remaps'.find? p = some r') :
    ∃ r, remaps.find? p = some r ∧ r'.old = r.old ∧
      Text.hasSuffix r'.new "/" = Text.hasSuffix r.new "/" := by
  induction hrenamed with
  | nil => cases h
  | @cons a b as bs hab _ ih =>
    rw [List.find?_cons] at h ⊢
    rw [hp a b hab.1] at h
    cases hpa : p a with
    | true =>
      rw [hpa] at h
      cases h
      exact ⟨a, rfl, hab.1, hab.2⟩
    | false =>
      rw [hpa] at h
      exact ih h

theorem Fits.renamed (h : Fits remaps path) (hrenamed : Renamed remaps remaps') :
    Fits remaps' path := by
  intro r' hr'
  have hold : ∀ r r' : PathRemap, r'.old = r.old → r'.touches path = r.touches path := by
    intro r r' he
    simp [PathRemap.touches, he]
  obtain ⟨r, hr, he, hclosed⟩ := renamed_find? hrenamed hold hr'
  have hdir : r'.dir = r.dir := by simp [PathRemap.dir, he]
  rw [he, hdir, hclosed]
  exact h r hr

end Lists

section Renaming
variable (target : String) (n : Nat)

/-- The rule with a long name for the new directory if its text is the target, else an empty one. -/
def renameTo (r : PathRemap) : PathRemap where
  old := r.old
  new := String.ofList (List.replicate (if r.old = target then n else 0) 'x') ++
    (if Text.hasSuffix r.new "/" then "/" else "")

theorem renamed_map (remaps : List PathRemap) : Renamed remaps (remaps.map (renameTo target n)) := by
  unfold Renamed
  rw [List.forall₂_map_right_iff, List.forall₂_same]
  intro r _
  refine ⟨rfl, ?_⟩
  unfold renameTo
  cases Text.hasSuffix r.new "/" with
  | true => simp [Text.hasSuffix, List.isSuffixOf_iff_suffix]
  | false =>
    have hx : '/' ∉ List.replicate (if r.old = target then n else 0) 'x' := by
      simp [List.mem_replicate]
    rw [Bool.eq_false_iff]
    intro hsuffix
    obtain ⟨t, ht⟩ := List.isSuffixOf_iff_suffix.mp hsuffix
    have hmem : '/' ∈ t ++ "/".toList := List.mem_append_right t (List.mem_singleton_self '/')
    rw [ht] at hmem
    simp at hmem

theorem find?_renamed (remaps : List PathRemap) {p : PathRemap → Bool}
    (hp : ∀ r, p (renameTo target n r) = p r) :
    (remaps.map (renameTo target n)).find? p = (remaps.find? p).map (renameTo target n) := by
  rw [List.find?_map]
  congr 2
  funext r
  exact hp r

theorem length_trimSuffix (s : String) : (Text.trimSuffix s "/").toList.length ≤ s.toList.length ∧
    s.toList.length ≤ (Text.trimSuffix s "/").toList.length + 1 := by
  cases h : Text.hasSuffix s "/" with
  | true =>
    have hs := congrArg (fun s => s.toList.length) (Text.trimSuffix_of_hasSuffix h)
    simp only [String.toList_append, List.length_append] at hs
    have hslash : "/".toList.length = 1 := rfl
    omega
  | false =>
    rw [Text.trimSuffix_eq_self h]
    omega

theorem length_renamed (r : PathRemap) :
    (if r.old = target then n else 0) ≤ (renameTo target n r).new.toList.length ∧
      (renameTo target n r).new.toList.length ≤ (if r.old = target then n else 0) + 1 := by
  unfold renameTo
  cases Text.hasSuffix r.new "/" <;> simp

theorem length_rewritten (r : PathRemap) (path : String) :
    r.new.toList.length ≤ (r.rewritten path).toList.length ∧
      (r.rewritten path).toList.length ≤ r.new.toList.length + path.toList.length := by
  simp [PathRemap.rewritten]

theorem length_joined (r : PathRemap) (path : String) :
    r.new.toList.length ≤ (r.joined path).toList.length + 1 ∧
      (r.joined path).toList.length ≤ r.new.toList.length + path.toList.length := by
  have hlength := length_trimSuffix r.new
  unfold PathRemap.joined
  split
  · omega
  · simp only [String.toList_append, List.length_append, String.toList_ofList, List.length_drop]
    omega

end Renaming

section Misfits
variable {remaps : List PathRemap} {r : PathRemap} {path : String}

theorem not_applies_inside (hstarts : Text.hasPrefix path r.old = true) (hold : path ≠ r.old)
    (hsep : ¬ Text.hasPrefix path (r.dir ++ "/") = true) : r.applies path = false := by
  have hopen : Text.hasSuffix r.old "/" = false := by
    rw [Bool.eq_false_iff]
    intro hclosed
    rw [PathRemap.dir, ← Text.trimSuffix_of_hasSuffix hclosed] at hsep
    exact hsep hstarts
  have hdir : r.dir = r.old := Text.trimSuffix_eq_self hopen
  rw [hdir] at hsep
  simp [PathRemap.applies, hdir, hold, hsep]

/-- A rule that ends inside a component is used all the same. -/
theorem not_respected_inside (hr : remaps.find? (fun r => r.touches path) = some r)
    (hstarts : Text.hasPrefix path r.old = true) (hnot : r.applies path = false) :
    ¬ Respected (remaps.map (renameTo r.old (path.toList.length + 3))) path := by
  intro hresp
  have hused : (remaps.map (renameTo r.old (path.toList.length + 3))).find?
      (fun r => Text.hasPrefix path r.old) = some (renameTo r.old (path.toList.length + 3) r) := by
    rw [find?_renamed _ _ _ (fun _ => rfl), find?_of_either (fun _ => touches_of_starts) hr hstarts]
    rfl
  have hlong := length_rewritten (renameTo r.old (path.toList.length + 3) r) path
  have hname := length_renamed r.old (path.toList.length + 3) r
  rw [if_pos rfl] at hname
  rw [← remapPath_some hused] at hlong
  obtain ⟨r', hr', happlies⟩ := hresp.only (ne_of_length (by omega))
  have hsome : ((remaps.map (renameTo r.old (path.toList.length + 3))).find?
      (fun r => r.applies path)).isSome := List.find?_isSome.mpr ⟨r', hr', happlies⟩
  obtain ⟨s, hs⟩ := Option.isSome_iff_exists.mp hsome
  have hjoined := hresp.first s hs
  -- the rule that applies has a short name
  rw [find?_renamed _ _ _ (fun _ => rfl)] at hs
  obtain ⟨q, hq, rfl⟩ := Option.map_eq_some_iff.mp hs
  have hqr : q.old ≠ r.old := by
    intro he
    have hq' : q.applies path = true := by simpa using List.find?_some hq
    simp only [PathRemap.applies, PathRemap.dir, he] at hq' hnot
    rw [hnot] at hq'
    cases hq'
  have hshort := length_joined (renameTo r.old (path.toList.length + 3) q) path
  have hname' := length_renamed r.old (path.toList.length + 3) q
  rw [if_neg hqr] at hname'
  rw [← hjoined] at hshort
  omega

/-- A rule that is closed by a separator is not used for its directory itself. -/
theorem not_respected_missed (hr : remaps.find? (fun r => r.touches path) = some r)
    (hstarts : Text.hasPrefix path r.old = false) (happlies : r.applies path = true) :
    ¬ Respected (remaps.map (renameTo r.old (path.toList.length + 3))) path := by
  intro hresp
  have hmeant : (remaps.map (renameTo r.old (path.toList.length + 3))).find?
      (fun r => r.applies path) = some (renameTo r.old (path.toList.length + 3) r) := by
    rw [find?_renamed _ _ _ (fun _ => rfl),
      find?_of_either (fun _ => touches_of_applies) hr happlies]
    rfl
  have hlong := length_joined (renameTo r.old (path.toList.length + 3) r) path
  have hname := length_renamed r.old (path.toList.length + 3) r
  rw [if_pos rfl] at hname
  rw [← hresp.first _ hmeant] at hlong
  cases hused : (remaps.map (renameTo r.old (path.toList.length + 3))).find?
      (fun r => Text.hasPrefix path r.old) with
  | none =>
    rw [remapPath_none hused] at hlong
    omega
  | some s =>
    rw [remapPath_some hused] at hlong
    rw [find?_renamed _ _ _ (fun _ => rfl)] at hused
    obtain ⟨q, hq, rfl⟩ := Option.map_eq_some_iff.mp hused
    have hqr : q.old ≠ r.old := by
      intro he
      have hq' : Text.hasPrefix path q.old = true := by simpa using List.find?_some hq
      rw [he, hstarts] at hq'
      cases hq'
    have hshort := length_rewritten (renameTo r.old (path.toList.length + 3) q) path
    have hname' := length_renamed r.old (path.toList.length + 3) q
    rw [if_neg hqr] at hname'
    omega

end Misfits

/-- A path is treated by its components, whatever the new directories are called, exactly if the
rules fit it. -/
theorem remap_respects_components_iff (remaps : List PathRemap) (path : String) :
    (∀ remaps', Renamed remaps remaps' → Respected remaps' path) ↔ Fits remaps path := by
  constructor
  · intro hall r hr
    by_contra hfits
    obtain ⟨hold, hbelow⟩ := not_or.mp hfits
    have hlong := hall _ (renamed_map r.old (path.toList.length + 3) remaps)
    by_cases hsep : Text.hasPrefix path (r.dir ++ "/") = true
    · -- the rule is the right one, but leaves out a separator or doubles it
      have hself := hall remaps (List.forall₂_same.mpr fun _ _ => ⟨rfl, rfl⟩)
      have hjoined := hself.first r
        (find?_of_either (fun _ => touches_of_applies) hr (applies_of_below hsep))
      rw [remapPath_some (find?_of_either (fun _ => touches_of_starts) hr (prefix_of_below hsep))]
        at hjoined
      exact hbelow ⟨hsep, (rewritten_eq_joined_iff hsep hold).mp hjoined⟩
    · cases hstarts : Text.hasPrefix path r.old with
      | true => exact not_respected_inside hr hstarts (not_applies_inside hstarts hold hsep) hlong
      | false =>
        have htouch : r.touches path = true := by simpa using List.find?_some hr
        have hclosed : r.old = path ++ "/" := by simpa [PathRemap.touches, hstarts] using htouch
        have hdir : r.dir = path := by rw [PathRemap.dir, hclosed, Text.trimSuffix_append]
        exact not_respected_missed hr hstarts (by simp [PathRemap.applies, hdir]) hlong
  · intro h remaps' hrenamed
    exact fits_respected (h.renamed hrenamed)

/-- A series under `/tvshows` is moved by the rule for `/tv`. -/
theorem sibling_directory_remapped :
    remapPath [⟨"/tv", "/media/tv"⟩] "/tvshows/Lost" = "/media/tvshows/Lost" ∧
      (⟨"/tv", "/media/tv"⟩ : PathRemap).applies "/tvshows/Lost" = false := by
  decide +kernel

end Sonarr.Migrate
