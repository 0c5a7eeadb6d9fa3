import Coinage.Proofs.Text.Utf8

/-! What is wrong with octets that are not the encoding of a text. The reader stops at the first octet
that no text can have in its place, or at the end of the octets if there is none. What it says can be
told without running it: octets are unfinished if they can be continued to a text, and otherwise it is
the octet behind the longest text in front of them that decides. -/

namespace Coinage.Text.Utf8

/-- The octets are the encoding of a text. -/
def IsEncoding (octets : List UInt8) : Prop := ∃ text, octets = encode text

/-- The longest text that the octets begin with. -/
structure IsLongestEncoding (front octets : List UInt8) : Prop where
  isEncoding : IsEncoding front
  isPrefix : front <+: octets
  longest : ∀ other, other <+: octets → IsEncoding other → other.length ≤ front.length

theorem isEncoding_iff {octets : List UInt8} :
    IsEncoding octets ↔ ∃ cs, decodeFrom none octets = .ok cs := by
  constructor
  · rintro ⟨text, rfl⟩
    exact ⟨text.toList, decodeFrom_encode text.toList⟩
  · rintro ⟨cs, h⟩
    exact ⟨String.ofList cs, by rw [encode, String.toList_ofList, eq_encode_of_decodeFrom h]⟩

theorem decode_eq_error_iff {octets : List UInt8} {flaw : Flaw} :
    decode octets = .error flaw ↔ decodeFrom none octets = .error flaw :=
  Except.map_eq_error_iff

/-! ### Octets in front of others -/

/-- What was read stays read, and the reader starts anew behind it. -/
theorem decodeFrom_append_of_ok {state : Option Pending} {octets : List UInt8} {cs : List Char}
    (h : decodeFrom state octets = .ok cs) (rest : List UInt8) :
    decodeFrom state (octets ++ rest) = (cs ++ ·) <$> decodeFrom none rest := by
  fun_induction decodeFrom state octets generalizing cs with
  | case1 =>
      cases h
      exact (id_map _).symm
  | case2 | case5 | case6 => cases h
  | case3 b r c hstart ih =>
      obtain ⟨cs', hr, rfl⟩ := Except.map_eq_ok_iff.mp h
      rw [List.cons_append, decodeFrom, hstart]
      simp only [ih hr, Functor.map_map, List.cons_append]
  | case4 b r p hstart ih =>
      rw [List.cons_append, decodeFrom, hstart]
      exact ih h
  | case7 p b r c hstep ih =>
      obtain ⟨cs', hr, rfl⟩ := Except.map_eq_ok_iff.mp h
      rw [List.cons_append, decodeFrom, hstep]
      simp only [ih hr, Functor.map_map, List.cons_append]
  | case8 p b r q hstep ih =>
      rw [List.cons_append, decodeFrom, hstep]
      exact ih h

/-- A wrong octet stays wrong, whatever follows it. -/
theorem decodeFrom_append_of_error {state : Option Pending} {octets : List UInt8} {flaw : Flaw}
    (h : decodeFrom state octets = .error flaw) (hflaw : flaw ≠ .unfinished) (rest : List UInt8) :
    decodeFrom state (octets ++ rest) = .error flaw := by
  fun_induction decodeFrom state octets with
  | case1 => cases h
  | case2 p => exact absurd (Except.error.inj h).symm hflaw
  | case3 b r c hstart ih =>
      rw [List.cons_append, decodeFrom, hstart]
      exact Except.map_eq_error_iff.mpr (ih (Except.map_eq_error_iff.mp h))
  | case4 b r p hstart ih =>
      rw [List.cons_append, decodeFrom, hstart]
      exact ih h
  | case5 b r hstart =>
      rw [List.cons_append, decodeFrom, hstart]
      exact h
  | case6 p b r hstep =>
      rw [List.cons_append, decodeFrom, hstep]
      exact h
  | case7 p b r c hstep ih =>
      rw [List.cons_append, decodeFrom, hstep]
      exact Except.map_eq_error_iff.mpr (ih (Except.map_eq_error_iff.mp h))
  | case8 p b r q hstep ih =>
      rw [List.cons_append, decodeFrom, hstep]
      exact ih h

/-! ### Octets that can be continued -/

namespace Pending

/-- An unfinished character for which there is a next octet. -/
structure Open (p : Pending) : Prop extends p.Sound where
  range : p.low.toNat ≤ p.high.toNat

theorem open_next (k bits : Nat) : (next (k + 1) bits).Open :=
  ⟨sound_next k bits, Nat.le_of_ble_eq_true rfl⟩

theorem open_of_start {b : UInt8} {p : Pending} (h : start b = .opens p) : p.Open := by
  refine ⟨sound_of_start h, ?_⟩
  rw [start_eq] at h
  split_ifs at h
  all_goals
    cases h
    exact Nat.le_of_ble_eq_true rfl

theorem Open.of_step {p q : Pending} (hp : p.Open) {b : UInt8} (h : p.step b = some (.inr q)) :
    q.Open := by
  obtain ⟨group, -, -, -, -, htake⟩ := (step_eq_some_iff hp.toSound).mp h
  rw [take] at htake
  split at htake
  · cases htake
  · next hwanted =>
      obtain ⟨k, hk⟩ : ∃ k, p.wanted - 1 = k + 1 := ⟨p.wanted - 2, by omega⟩
      cases htake
      rw [hk]
      exact open_next k _

/-- There is a number that begins with the bits that were gathered: its next group is the least that is
within range, and all others are zero. -/
theorem Open.exists_leads {p : Pending} (hp : p.Open) : ∃ n, p.Leads n := by
  obtain ⟨k, hk⟩ := hp.exists_wanted
  have hlow := hp.low
  have hhigh := hp.high
  have hrange := hp.range
  let group := p.low.toNat - 0x80
  have hgroups : (p.bits * 64 + group) * 64 ^ k / 64 ^ k = p.bits * 64 + group :=
    Nat.mul_div_cancel _ (Nat.pow_pos (by decide))
  have hgroup : (p.bits * 64 + group) % 64 = group := by omega
  refine ⟨(p.bits * 64 + group) * 64 ^ k, ?bits, ?low, ?high⟩
  case bits =>
    rw [hk, Nat.pow_succ, ← Nat.div_div_eq_div_mul, hgroups]
    omega
  case low =>
    rw [hk, Nat.add_sub_cancel, hgroups, hgroup]
    omega
  case high =>
    rw [hk, Nat.add_sub_cancel, hgroups, hgroup]
    omega

end Pending

open Pending

/-- Octets that end too early can be continued to a text. -/
theorem exists_continuation {state : Option Pending} (hstate : ∀ p ∈ state, p.Open)
    {octets : List UInt8} (h : decodeFrom state octets = .error .unfinished) :
    ∃ more, more ≠ [] ∧ ∃ cs, decodeFrom state (octets ++ more) = .ok cs := by
  fun_induction decodeFrom state octets with
  | case1 | case5 | case6 => cases h
  | case2 p =>
      have hp := hstate p rfl
      obtain ⟨k, hk⟩ := hp.exists_wanted
      obtain ⟨n, hn⟩ := hp.exists_leads
      refine ⟨continuation p.wanted n, ?_, [Char.ofNat n], ?_⟩
      · rw [hk]
        exact List.cons_ne_nil _ _
      · have hread := decodeFrom_continuation hp.toSound hn []
        rwa [List.append_nil] at hread
  | case3 b r c hstart ih =>
      obtain ⟨more, hmore, cs, hcs⟩ := ih hstate (Except.map_eq_error_iff.mp h)
      refine ⟨more, hmore, c :: cs, ?_⟩
      rw [List.cons_append, decodeFrom, hstart]
      exact Except.map_eq_ok_iff.mpr ⟨cs, hcs, rfl⟩
  | case4 b r p hstart ih =>
      have hopen : ∀ q ∈ some p, q.Open := by
        rintro q ⟨⟩
        exact open_of_start hstart
      obtain ⟨more, hmore, cs, hcs⟩ := ih hopen h
      refine ⟨more, hmore, cs, ?_⟩
      rw [List.cons_append, decodeFrom, hstart]
      exact hcs
  | case7 p b r c hstep ih =>
      obtain ⟨more, hmore, cs, hcs⟩ := ih (by rintro q ⟨⟩) (Except.map_eq_error_iff.mp h)
      refine ⟨more, hmore, c :: cs, ?_⟩
      rw [List.cons_append, decodeFrom, hstep]
      exact Except.map_eq_ok_iff.mpr ⟨cs, hcs, rfl⟩
  | case8 p b r q hstep ih =>
      have hopen : ∀ q' ∈ some q, q'.Open := by
        rintro q' ⟨⟩
        exact (hstate p rfl).of_step hstep
      obtain ⟨more, hmore, cs, hcs⟩ := ih hopen h
      refine ⟨more, hmore, cs, ?_⟩
      rw [List.cons_append, decodeFrom, hstep]
      exact hcs

/-- **Octets are unfinished if and only if there is something missing behind them.** -/
theorem unfinished_iff {octets : List UInt8} {flaw : Flaw} (h : decode octets = .error flaw) :
    flaw = .unfinished ↔ ∃ more, more ≠ [] ∧ IsEncoding (octets ++ more) := by
  have hread := decode_eq_error_iff.mp h
  constructor
  · rintro rfl
    obtain ⟨more, hmore, hcs⟩ := exists_continuation (by rintro p ⟨⟩) hread
    exact ⟨more, hmore, isEncoding_iff.mpr hcs⟩
  · rintro ⟨more, -, hmore⟩
    obtain ⟨cs, hcs⟩ := isEncoding_iff.mp hmore
    by_cases hflaw : flaw = .unfinished
    · exact hflaw
    · rw [decodeFrom_append_of_error hread hflaw] at hcs
      cases hcs

/-! ### The octet behind the longest text -/

/-- The octets of which no character starts. -/
theorem start_eq_never_iff {b : UInt8} :
    start b = .never ↔ (0x80 ≤ b ∧ b ≤ 0xC1) ∨ 0xF5 ≤ b := by
  simp only [UInt8.le_iff_toNat_le, UInt8.reduceToNat, start_eq]
  split_ifs <;> simp only [false_iff, true_iff] <;> omega

/-- Behind an unfinished character there is a first one that is finished, or the reader stops in the
midst of it. -/
theorem finishes_or_stops (p : Pending) (octets : List UInt8) :
    (∃ front rest c, octets = front ++ rest ∧ decodeFrom (some p) front = .ok [c]) ∨
      (decodeFrom (some p) octets = .error .unfinished ∨
        decodeFrom (some p) octets = .error .continuationOctet) ∧
      ∀ front, front <+: octets → ∀ cs, decodeFrom (some p) front ≠ .ok cs := by
  induction octets generalizing p with
  | nil =>
      refine .inr ⟨.inl rfl, fun front hfront cs hcs => ?_⟩
      rw [List.prefix_nil.mp hfront] at hcs
      cases hcs
  | cons b r ih =>
      cases hstep : p.step b with
      | none =>
          refine .inr ⟨.inr (by rw [decodeFrom, hstep]), fun front hfront cs hcs => ?_⟩
          rcases List.prefix_cons_iff.mp hfront with rfl | ⟨front, rfl, -⟩
          · cases hcs
          · rw [decodeFrom, hstep] at hcs
            cases hcs
      | some after =>
          cases after with
          | inl c =>
              refine .inl ⟨[b], r, c, rfl, ?_⟩
              rw [decodeFrom, hstep]
              rfl
          | inr q =>
              rcases ih q with ⟨front, rest, c, rfl, hfront⟩ | ⟨hstops, hnone⟩
              · refine .inl ⟨b :: front, rest, c, rfl, ?_⟩
                rw [decodeFrom, hstep]
                exact hfront
              · refine .inr ⟨by rwa [decodeFrom, hstep], fun front hfront cs hcs => ?_⟩
                rcases List.prefix_cons_iff.mp hfront with rfl | ⟨front, rfl, hrest⟩
                · cases hcs
                · rw [decodeFrom, hstep] at hcs
                  exact hnone front hrest cs hcs

/-- The octets begin with no text but the empty one. -/
def Bare (octets : List UInt8) : Prop := ∀ front, front <+: octets → IsEncoding front → front = []

theorem bare_cons {b : UInt8} {r : List UInt8}
    (h : ∀ front, front <+: r → ∀ cs, decodeFrom none (b :: front) ≠ .ok cs) : Bare (b :: r) := by
  intro other hother hencoding
  obtain ⟨cs, hcs⟩ := isEncoding_iff.mp hencoding
  rcases List.prefix_cons_iff.mp hother with rfl | ⟨front, rfl, hfront⟩
  · rfl
  · exact absurd hcs (h front hfront cs)

/-- Where the reader stops: it gets through a text in front, and behind it octets begin with none. -/
structure Stops (octets front rest : List UInt8) (flaw : Flaw) : Prop where
  split : octets = front ++ rest
  isEncoding : IsEncoding front
  bare : Bare rest
  flaw : decodeFrom none rest = .error flaw

theorem stops_of_bare {octets : List UInt8} {flaw : Flaw} (hbare : Bare octets)
    (h : decodeFrom none octets = .error flaw) : Stops octets [] octets flaw :=
  ⟨rfl, ⟨"", rfl⟩, hbare, h⟩

/-- A character more in front does not change where the reader stops. -/
theorem Stops.append {first octets front rest : List UInt8} {flaw : Flaw} {c : Char}
    (h : Stops octets front rest flaw) (hfirst : decodeFrom none first = .ok [c]) :
    Stops (first ++ octets) (first ++ front) rest flaw where
  split := by rw [h.split, List.append_assoc]
  isEncoding := by
    obtain ⟨cs, hcs⟩ := isEncoding_iff.mp h.isEncoding
    refine isEncoding_iff.mpr ⟨[c] ++ cs, ?_⟩
    rw [decodeFrom_append_of_ok hfirst, hcs]
    rfl
  bare := h.bare
  flaw := h.flaw

theorem exists_stops {octets : List UInt8} {flaw : Flaw} (h : decodeFrom none octets = .error flaw) :
    ∃ front b behind, Stops octets front (b :: behind) flaw := by
  -- A character is taken off at a time, so the rest is shorter by all of its octets.
  induction hlength : octets.length using Nat.strongRecOn generalizing octets with
  | ind length ih =>
      subst hlength
      have hafter : ∀ {first rest : List UInt8} {c : Char}, decodeFrom none first = .ok [c] →
          first ≠ [] → octets = first ++ rest →
          ∃ front b behind, Stops octets front (b :: behind) flaw := by
        rintro first rest c hread hfirst rfl
        rw [decodeFrom_append_of_ok hread, Except.map_eq_error_iff] at h
        have hshorter : rest.length < (first ++ rest).length := by
          have hpos := List.length_pos_iff.mpr hfirst
          rw [List.length_append]
          omega
        obtain ⟨front, b, behind, hstops⟩ := ih _ hshorter h rfl
        exact ⟨first ++ front, b, behind, hstops.append hread⟩
      cases octets with
      | nil => cases h
      | cons b r =>
          cases hstart : start b with
          | never =>
              refine ⟨[], b, r, stops_of_bare (bare_cons fun front _ cs => ?_) h⟩
              simp [decodeFrom, hstart]
          | complete c =>
              have hread : decodeFrom none [b] = .ok [c] := by
                rw [decodeFrom, hstart]
                rfl
              exact hafter hread (List.cons_ne_nil _ _) rfl
          | opens p =>
              rcases finishes_or_stops p r with ⟨first, rest, c, rfl, hfirst⟩ | ⟨-, hnone⟩
              · have hread : decodeFrom none (b :: first) = .ok [c] := by
                  rw [decodeFrom, hstart]
                  exact hfirst
                exact hafter hread (List.cons_ne_nil _ _) rfl
              · refine ⟨[], b, r, stops_of_bare (bare_cons fun front hfront cs => ?_) h⟩
                rw [decodeFrom, hstart]
                exact hnone front hfront cs

namespace Stops

/-- The flaw is in the first character behind the text, and its start octet tells it. -/
theorem startOctet_iff {octets front behind : List UInt8} {b : UInt8} {flaw : Flaw}
    (h : Stops octets front (b :: behind) flaw) : flaw = .startOctet ↔ start b = .never := by
  obtain ⟨-, -, hbare, hflaw⟩ := h
  rw [decodeFrom] at hflaw
  cases hstart : start b with
  | never =>
      rw [hstart] at hflaw
      simpa using (Except.error.inj hflaw).symm
  | complete c =>
      have hread : decodeFrom none [b] = .ok [c] := by
        rw [decodeFrom, hstart]
        rfl
      have hone : [b] <+: b :: behind := ⟨behind, rfl⟩
      exact absurd (hbare [b] hone (isEncoding_iff.mpr ⟨_, hread⟩)) (List.cons_ne_nil _ _)
  | opens p =>
      rw [hstart] at hflaw
      rcases finishes_or_stops p behind with ⟨first, rest, c, rfl, hfirst⟩ | ⟨hstops, -⟩
      · have hread : decodeFrom none (b :: first) = .ok [c] := by
          rw [decodeFrom, hstart]
          exact hfirst
        have hprefix : b :: first <+: b :: (first ++ rest) := ⟨rest, rfl⟩
        exact absurd (hbare _ hprefix (isEncoding_iff.mpr ⟨_, hread⟩)) (List.cons_ne_nil _ _)
      · simp only [reduceCtorEq, iff_false]
        rintro rfl
        rcases hstops with hstops | hstops <;> cases hflaw.symm.trans hstops

/-- The text that the reader gets through is the longest one. -/
theorem isLongestEncoding {octets front rest : List UInt8} {flaw : Flaw}
    (h : Stops octets front rest flaw) : IsLongestEncoding front octets where
  isEncoding := h.isEncoding
  isPrefix := h.split ▸ List.prefix_append front rest
  longest other hother hencoding := by
    rcases Nat.le_total other.length front.length with hle | hge
    · exact hle
    rw [h.split] at hother
    obtain ⟨more, rfl⟩ := List.prefix_of_prefix_length_le (List.prefix_append front rest) hother hge
    obtain ⟨cs, hcs⟩ := isEncoding_iff.mp h.isEncoding
    obtain ⟨cs', hcs'⟩ := isEncoding_iff.mp hencoding
    rw [decodeFrom_append_of_ok hcs] at hcs'
    obtain ⟨cs'', hmore, -⟩ := Except.map_eq_ok_iff.mp hcs'
    have hnil : more = [] :=
      h.bare more ((List.prefix_append_right_inj front).mp hother) (isEncoding_iff.mpr ⟨cs'', hmore⟩)
    exact Nat.le_of_eq (by rw [hnil, List.append_nil])

end Stops

/-- **What is wrong with octets that are no text.** Behind the longest text in front of them there is
an octet, by which it is seen whether it is a start octet that is wrong. -/
theorem exists_flaw {octets : List UInt8} (h : ¬ IsEncoding octets) :
    ∃ flaw front b behind, decode octets = .error flaw ∧ octets = front ++ b :: behind ∧
      IsLongestEncoding front octets ∧ (flaw = .startOctet ↔ (0x80 ≤ b ∧ b ≤ 0xC1) ∨ 0xF5 ≤ b) := by
  cases hread : decodeFrom none octets with
  | ok cs => exact absurd (isEncoding_iff.mpr ⟨cs, hread⟩) h
  | error flaw =>
      obtain ⟨front, b, behind, hstops⟩ := exists_stops hread
      exact ⟨flaw, front, b, behind, decode_eq_error_iff.mpr hread, hstops.split,
        hstops.isLongestEncoding, hstops.startOctet_iff.trans start_eq_never_iff⟩

end Coinage.Text.Utf8
