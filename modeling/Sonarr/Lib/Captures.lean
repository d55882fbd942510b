import Sonarr.Lib.Regex

/-! What a match is made of: the text that it consumes and what its groups capture. -/
namespace Sonarr.Lib.Re

/-- `r` can consume the text `w` and capture `gs`, the latest first. An assertion consumes
nothing; where in the text it holds is left out. -/
inductive Consumes : Re → List Char → List (String × List Char) → Prop
  | empty : Consumes .empty [] []
  | set (hp : p x = true) : Consumes (.set p) [x] []
  | seq (ha : Consumes a w gs) (hb : Consumes b v hs) : Consumes (.seq a b) (w ++ v) (hs ++ gs)
  | left (ha : Consumes a w gs) : Consumes (.alt a b) w gs
  | right (hb : Consumes b w gs) : Consumes (.alt a b) w gs
  | stop : Consumes (.star greedy a) [] []
  | again (ha : Consumes a w gs) (hrest : Consumes (.star greedy a) v hs) :
      Consumes (.star greedy a) (w ++ v) (hs ++ gs)
  | group (ha : Consumes a w gs) : Consumes (.group name a) w ((name, w) :: gs)
  | textStart : Consumes .textStart [] []
  | textEnd : Consumes .textEnd [] []
  | wordBoundary : Consumes .wordBoundary [] []

/-- From one place to another by a match of `r`. -/
def Advances (r : Re) (c d : Cursor) : Prop :=
  ∃ w gs, Consumes r w gs ∧ c.rest = w ++ d.rest ∧ d.groups = gs ++ c.groups

theorem advances_still (h : Consumes r [] []) (c : Cursor) : Advances r c c :=
  ⟨[], [], h, rfl, rfl⟩

theorem iterate_advances {f : Cursor → List Cursor} (hf : ∀ c d, d ∈ f c → Advances a c d)
    (fuel : Nat) (hd : d ∈ iterate greedy f fuel c) : Advances (.star greedy a) c d := by
  induction fuel generalizing c with
  | zero =>
    rw [iterate, List.mem_singleton] at hd
    subst hd
    exact advances_still .stop d
  | succ fuel ih =>
    have hcases : d = c ∨ ∃ m ∈ f c, d ∈ iterate greedy f fuel m := by
      unfold iterate at hd
      cases greedy <;> simp only [Bool.false_eq_true, if_true, if_false, List.mem_append,
        List.mem_cons, List.not_mem_nil, or_false, List.mem_flatMap, List.mem_filter] at hd
      · rcases hd with hd | ⟨m, ⟨hm, _⟩, hd⟩
        · exact .inl hd
        · exact .inr ⟨m, hm, hd⟩
      · rcases hd with ⟨m, ⟨hm, _⟩, hd⟩ | hd
        · exact .inr ⟨m, hm, hd⟩
        · exact .inl hd
    rcases hcases with rfl | ⟨m, hm, hd⟩
    · exact advances_still .stop d
    · obtain ⟨w, gs, ha, hrest, hgroups⟩ := hf c m hm
      obtain ⟨v, hs, hstar, hrest', hgroups'⟩ := ih hd
      refine ⟨w ++ v, hs ++ gs, .again ha hstar, ?_, ?_⟩
      · rw [hrest, hrest', List.append_assoc]
      · rw [hgroups', hgroups, List.append_assoc]

/-- Every way to match is a way to consume and to capture. -/
theorem run_advances (r : Re) (hd : d ∈ r.run c) : Advances r c d := by
  induction r generalizing c d with
  | empty =>
    rw [run, List.mem_singleton] at hd
    subst hd
    exact advances_still .empty d
  | set p =>
    unfold run at hd
    split at hd
    · cases hd
    · rename_i x xs hrest
      split at hd
      · rename_i hp
        rw [List.mem_singleton] at hd
        subst hd
        exact ⟨[x], [], .set hp, hrest, rfl⟩
      · cases hd
  | seq a b iha ihb =>
    rw [run, List.mem_flatMap] at hd
    obtain ⟨m, hm, hd⟩ := hd
    obtain ⟨w, gs, ha, hrest, hgroups⟩ := iha hm
    obtain ⟨v, hs, hb, hrest', hgroups'⟩ := ihb hd
    refine ⟨w ++ v, hs ++ gs, .seq ha hb, ?_, ?_⟩
    · rw [hrest, hrest', List.append_assoc]
    · rw [hgroups', hgroups, List.append_assoc]
  | alt a b iha ihb =>
    rw [run, List.mem_append] at hd
    rcases hd with hd | hd
    · obtain ⟨w, gs, ha, hrest⟩ := iha hd
      exact ⟨w, gs, .left ha, hrest⟩
    · obtain ⟨w, gs, hb, hrest⟩ := ihb hd
      exact ⟨w, gs, .right hb, hrest⟩
  | star greedy a iha => exact iterate_advances (fun c d => iha) _ hd
  | group name a iha =>
    rw [run, List.mem_map] at hd
    obtain ⟨m, hm, rfl⟩ := hd
    obtain ⟨w, gs, ha, hrest, hgroups⟩ := iha hm
    refine ⟨w, (name, w) :: gs, .group ha, hrest, ?_⟩
    simp [hrest, hgroups]
  | textStart | textEnd | wordBoundary =>
    unfold run at hd
    split at hd
    · rw [List.mem_singleton] at hd
      subst hd
      exact advances_still (by constructor) d
    · cases hd

theorem search_consumes (h : search r prev s = some d) : ∃ w, Consumes r w d.groups := by
  have hhere : ∀ prev s, (r.run ⟨prev, s, []⟩).head? = some d → ∃ w, Consumes r w d.groups := by
    intro prev s hhead
    obtain ⟨w, gs, hr, _, hgroups⟩ := run_advances r (List.mem_of_head? hhead)
    rw [List.append_nil] at hgroups
    exact ⟨w, hgroups ▸ hr⟩
  induction s generalizing prev with
  | nil => exact hhere prev [] h
  | cons x xs ih =>
    unfold search at h
    split at h
    · rename_i c hc
      cases h
      exact hhere prev (x :: xs) hc
    · exact ih h

/-- The groups of a submatch are captures of one match. -/
theorem findSubmatch_consumes (h : findSubmatch r s = some gs) : ∃ w, Consumes r w gs := by
  obtain ⟨d, hd, rfl⟩ := Option.map_eq_some_iff.mp h
  exact search_consumes hd

/-- An expression without groups. -/
def silent : Re → Bool
  | .empty | .set _ | .textStart | .textEnd | .wordBoundary => true
  | .seq a b | .alt a b => a.silent && b.silent
  | .star _ a => a.silent
  | .group _ _ => false

theorem Consumes.of_silent (h : Consumes r w gs) (hr : r.silent = true) : gs = [] := by
  induction h with
  | empty | set | stop | textStart | textEnd | wordBoundary => rfl
  | seq _ _ iha ihb =>
    simp only [silent, Bool.and_eq_true] at hr
    rw [iha hr.1, ihb hr.2]
    rfl
  | left _ ih | right _ ih =>
    simp only [silent, Bool.and_eq_true] at hr
    first | exact ih hr.1 | exact ih hr.2
  | again _ _ iha ihs =>
    rw [iha hr, ihs hr]
    rfl
  | group => cases hr

/-- The characters that an expression can consume. -/
def allows : Re → Char → Bool
  | .set p, x => p x
  | .seq a b, x | .alt a b, x => a.allows x || b.allows x
  | .star _ a, x | .group _ a, x => a.allows x
  | .empty, _ | .textStart, _ | .textEnd, _ | .wordBoundary, _ => false

theorem Consumes.allowed (h : Consumes r w gs) : ∀ x ∈ w, r.allows x = true := by
  induction h with
  | empty | stop | textStart | textEnd | wordBoundary => simp
  | set hp => simpa [allows] using hp
  | seq _ _ iha ihb =>
    intro x hx
    rcases List.mem_append.mp hx with hx | hx
    · simp [allows, iha x hx]
    · simp [allows, ihb x hx]
  | left _ ih | right _ ih =>
    intro x hx
    simp [allows, ih x hx]
  | again _ _ iha ihs =>
    intro x hx
    rcases List.mem_append.mp hx with hx | hx
    · exact iha x hx
    · exact ihs x hx
  | group _ ih => exact ih

/-! A sequence is read from left to right: what has no groups is passed over, and a group
with none inside it captures what it consumes. -/

theorem Consumes.split (h : Consumes (.seq a b) w gs) :
    ∃ u v ha hb, w = u ++ v ∧ Consumes a u ha ∧ Consumes b v hb := by
  cases h with
  | seq hfst hsnd => exact ⟨_, _, _, _, rfl, hfst, hsnd⟩

theorem Consumes.skip (h : Consumes (.seq a b) w gs) (ha : a.silent = true) :
    ∃ v, Consumes b v gs := by
  cases h with
  | seq hfst hsnd =>
    rw [hfst.of_silent ha, List.append_nil]
    exact ⟨_, hsnd⟩

theorem Consumes.capture (h : Consumes (.group name a) w gs) (ha : a.silent = true) :
    Consumes a w [] ∧ gs = [(name, w)] := by
  cases h with
  | group hbody =>
    have hnone := hbody.of_silent ha
    subst hnone
    exact ⟨hbody, rfl⟩

theorem Consumes.take (h : Consumes (.seq (.group name a) b) w gs) (ha : a.silent = true) :
    ∃ u v hs, Consumes a u [] ∧ Consumes b v hs ∧ gs = hs ++ [(name, u)] := by
  cases h with
  | seq hfst hsnd =>
    obtain ⟨hbody, rfl⟩ := hfst.capture ha
    exact ⟨_, _, _, hbody, hsnd, rfl⟩

/-- A repeated group has captured something in every round. -/
theorem Consumes.rounds (h : Consumes (.star greedy (.seq a (.group name b))) w gs)
    (ha : a.silent = true) (hb : b.silent = true) :
    ∃ ts : List (List Char), gs = ts.map (fun t => (name, t)) ∧ ∀ t ∈ ts, Consumes b t [] := by
  generalize hr : Re.star greedy (.seq a (.group name b)) = r at h
  induction h with
  | stop => exact ⟨[], rfl, by simp⟩
  | again hround _ _ ih =>
    cases hr
    obtain ⟨ts, rfl, hts⟩ := ih rfl
    obtain ⟨v, hgroup⟩ := hround.skip ha
    obtain ⟨hbody, rfl⟩ := hgroup.capture hb
    refine ⟨ts ++ [v], by simp, ?_⟩
    intro t ht
    rcases List.mem_append.mp ht with ht | ht
    · exact hts t ht
    · rw [List.mem_singleton.mp ht]
      exact hbody
  | _ => cases hr

/-! Repeated characters of a kind. -/

theorem Consumes.times {n : Nat} (h : Consumes (times (.set p) n) w gs) :
    w.length = n ∧ ∀ x ∈ w, p x = true := by
  induction n generalizing w gs with
  | zero =>
    cases h
    exact ⟨rfl, by simp⟩
  | succ n ih =>
    cases h with
    | seq hfst hrest =>
      cases hfst with
      | set hp =>
        obtain ⟨hlen, hall⟩ := ih hrest
        exact ⟨by simp [hlen], by simpa [hp] using hall⟩

theorem Consumes.upTo {k : Nat} (h : Consumes (upTo (.set p) k) w gs) :
    w.length ≤ k ∧ ∀ x ∈ w, p x = true := by
  induction k generalizing w gs with
  | zero =>
    cases h
    exact ⟨Nat.le_refl _, by simp⟩
  | succ k ih =>
    cases h with
    | left hmore =>
      cases hmore with
      | seq hfst hrest =>
        cases hfst with
        | set hp =>
          obtain ⟨hlen, hall⟩ := ih hrest
          exact ⟨by simpa using hlen, by simpa [hp] using hall⟩
    | right hnone =>
      cases hnone
      exact ⟨Nat.zero_le _, by simp⟩

theorem Consumes.between {m n : Nat} (h : Consumes (between (.set p) m n) w gs) (hmn : m ≤ n) :
    m ≤ w.length ∧ w.length ≤ n ∧ ∀ x ∈ w, p x = true := by
  cases h with
  | seq hfst hrest =>
    obtain ⟨hlen, hall⟩ := hfst.times
    obtain ⟨hlen', hall'⟩ := hrest.upTo
    refine ⟨by simp [hlen], ?_, ?_⟩
    · rw [List.length_append]
      omega
    · intro x hx
      rcases List.mem_append.mp hx with hx | hx
      · exact hall x hx
      · exact hall' x hx

end Sonarr.Lib.Re
