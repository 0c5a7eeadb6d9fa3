import Coinage.Proofs.Json.Quotation

/-! Written values, read. The lemmas follow the writer: each of them says of one kind of value that
it is read as what was written, wherever a comma, a closing bracket or the end follows, as long as as
many arrays and objects can be opened as it has inside each other. -/

namespace Coinage

namespace Listing

variable {κ α : Type} [BEq κ] [LawfulBEq κ]

theorem put_of_not_mem {k : κ} {listing : List (κ × α)} (h : k ∉ listing.map Prod.fst) (a : α) :
    put k a listing = listing ++ [(k, a)] := by
  induction listing with
  | nil => rfl
  | cons e r ih =>
      rw [List.map_cons, List.mem_cons, not_or] at h
      rw [put, if_neg (by simpa using h.1), ih h.2]
      rfl

/-- Entries whose keys differ stay as they are. -/
theorem ofEntries_of_nodup {es : List (κ × α)} (h : (es.map Prod.fst).Nodup) :
    ofEntries es = es := by
  have hputAll : ∀ es listing : List (κ × α), ((listing ++ es).map Prod.fst).Nodup →
      putAll es listing = listing ++ es := by
    intro es
    induction es with
    | nil => exact fun listing _ => (List.append_nil listing).symm
    | cons e r ih =>
        intro listing hnodup
        have hfresh : e.1 ∉ listing.map Prod.fst := by
          rw [List.map_append, List.nodup_append] at hnodup
          exact fun hmem => hnodup.2.2 e.1 hmem e.1 List.mem_cons_self rfl
        change putAll r (put e.1 e.2 listing) = _
        rw [put_of_not_mem hfresh, ih, List.append_assoc]
        · rfl
        · simpa using hnodup
  exact hputAll es [] h

end Listing

namespace Json

open Text (Element)

/-- What can stand behind a value. -/
def Closed : Source → Prop
  | [] => True
  | e :: _ => e = .char ',' ∨ e = .char ']' ∨ e = .char '}'

theorem closed_comma (s : Source) : Closed (.char ',' :: s) := .inl rfl

theorem closed_bracket (s : Source) : Closed (.char ']' :: s) := .inr (.inl rfl)

theorem closed_brace (s : Source) : Closed (.char '}' :: s) := .inr (.inr rfl)

/-- No blank, and nothing that closes an array or an object. -/
def opensValue (c : Char) : Bool := !isBlankChar c && c != ']' && c != '}'

/-- The characters stand for a value that opens at most so many arrays and objects at once. -/
structure Reads (depth : Nat) (cs : List Char) (v : Json) : Prop where
  opens : ∃ c r, cs = c :: r ∧ opensValue c = true
  value_eq : ∀ (room fuel : Nat) (rest : Source), depth ≤ room → 2 * cs.length ≤ fuel →
    Closed rest → value .standard room fuel (source cs ++ rest) = .ok (v, rest)

theorem source_append (cs cs' : List Char) : source (cs ++ cs') = source cs ++ source cs' :=
  List.map_append

theorem skipBlanks_char {c : Char} (h : isBlankChar c = false) (r : Source) :
    skipBlanks (.char c :: r) = .char c :: r := by
  simp [skipBlanks, isBlank, Element.char?, h]

theorem Reads.mono {depth depth' : Nat} {cs : List Char} {v : Json} (h : Reads depth cs v)
    (hdepth : depth ≤ depth') : Reads depth' cs v :=
  ⟨h.opens, fun room fuel rest hroom => h.value_eq room fuel rest (hdepth.trans hroom)⟩

theorem Reads.skipBlanks {depth : Nat} {cs : List Char} {v : Json} (h : Reads depth cs v)
    (rest : Source) : skipBlanks (source cs ++ rest) = source cs ++ rest := by
  obtain ⟨c, r, rfl, hopens⟩ := h.opens
  refine skipBlanks_char ?_ _
  simp only [opensValue, Bool.and_eq_true, Bool.not_eq_true'] at hopens
  exact hopens.1.1

theorem reads_null : Reads 0 ['n', 'u', 'l', 'l'] .null where
  opens := ⟨_, _, rfl, by decide⟩
  value_eq room fuel rest _ hfuel _ := by
    obtain ⟨fuel, rfl⟩ := Nat.exists_eq_succ_of_ne_zero (n := fuel) (by simp at hfuel; omega)
    rfl

theorem reads_quoted (t : Text) : Reads 0 (quoted t) (.str t.joined) where
  opens := ⟨_, _, rfl, by decide⟩
  value_eq room fuel rest _ hfuel _ := by
    cases fuel with
    | zero => simp [quoted] at hfuel
    | succ fuel =>
        change (quotedText (source (t.elements.flatMap escape ++ ['"']) ++ rest)).map _ = _
        rw [quotedText_quoted]
        rfl

/-! ### Numbers -/

theorem exists_digit {c : Char} (hc : c.isDigit = true) : ∃ d < 10, c = Char.ofNat (48 + d) := by
  simp only [Char.isDigit, Bool.and_eq_true, decide_eq_true_eq] at hc
  obtain ⟨hlow, hhigh⟩ := hc
  have hlow : 48 ≤ c.toNat := hlow
  have hhigh : c.toNat ≤ 57 := hhigh
  refine ⟨c.toNat - 48, by omega, ?_⟩
  rw [Nat.add_sub_cancel' hlow, Char.ofNat_toNat]

theorem digits_append {ds : List Char} (hds : ∀ c ∈ ds, c.isDigit = true) {rest : Source}
    (hrest : Closed rest) : digits (source ds ++ rest) = (ds, rest) := by
  induction ds with
  | nil =>
      cases rest with
      | nil => rfl
      | cons e r => rcases hrest with rfl | rfl | rfl <;> rfl
  | cons c r ih =>
      have hc : c.isDigit = true := hds c List.mem_cons_self
      have hr := ih fun x hx => hds x (List.mem_cons_of_mem c hx)
      change digits (.char c :: (source r ++ rest)) = _
      rw [digits, if_pos hc, hr]

/-- Only the number zero begins with a zero. -/
theorem toDigits_eq_cons {n : Nat} (hn : n ≠ 0) :
    ∃ c r, Nat.toDigits 10 n = c :: r ∧ c ≠ '0' := by
  induction n using Nat.strongRecOn with
  | ind n ih =>
      rcases Nat.lt_or_ge n 10 with hsmall | hlarge
      · refine ⟨n.digitChar, [], Nat.toDigits_of_lt_base hsmall, ?_⟩
        interval_cases n
        · exact absurd rfl hn
        all_goals decide
      · obtain ⟨c, r, hdigits, hc⟩ := ih (n / 10) (by omega) (by omega)
        refine ⟨c, r ++ [(n % 10).digitChar], ?_, hc⟩
        rw [Nat.toDigits_of_base_le (by decide) hlarge, hdigits]
        rfl

theorem fraction_closed {rest : Source} (h : Closed rest) : fraction rest = ([], rest) := by
  cases rest with
  | nil => rfl
  | cons e r => rcases h with rfl | rfl | rfl <;> rfl

theorem exponent_closed {rest : Source} (h : Closed rest) : exponent rest = (none, rest) := by
  cases rest with
  | nil => rfl
  | cons e r => rcases h with rfl | rfl | rfl <;> simp [exponent]

theorem wholePart_toDigits (n : Nat) {rest : Source} (h : Closed rest) :
    wholePart (source (Nat.toDigits 10 n) ++ rest) = (Nat.toDigits 10 n, rest) := by
  rcases eq_or_ne n 0 with rfl | hn
  · rfl
  · obtain ⟨c, r, hdigits, hc⟩ := toDigits_eq_cons hn
    have hall : ∀ x ∈ Nat.toDigits 10 n, x.isDigit = true := fun x hx =>
      Nat.isDigit_of_mem_toDigits (by decide) (by decide) hx
    rw [← digits_append hall h, hdigits]
    rw [wholePart]
    intro r' heq
    cases heq
    exact hc rfl

theorem sign_of_digit {c : Char} (hc : c.isDigit = true) (s : Source) :
    sign (.char c :: s) = (false, .char c :: s) := by
  obtain ⟨d, hd, rfl⟩ := exists_digit hc
  interval_cases d <;> rfl

theorem value_of_digit {c : Char} (hc : c.isDigit = true) (room fuel : Nat) (s : Source) :
    value .standard room (fuel + 1) (.char c :: s) = number .standard (.char c :: s) := by
  obtain ⟨d, hd, rfl⟩ := exists_digit hc
  interval_cases d <;> rfl

theorem value_of_minus {c : Char} (hc : c.isDigit = true) (room fuel : Nat) (s : Source) :
    value .standard room (fuel + 1) (.char '-' :: .char c :: s) =
      number .standard (.char '-' :: .char c :: s) := by
  obtain ⟨d, hd, rfl⟩ := exists_digit hc
  interval_cases d <;> rfl

theorem exists_digit_cons (n : Nat) : ∃ c r, Nat.toDigits 10 n = c :: r ∧ c.isDigit = true := by
  obtain ⟨c, r, hdigits⟩ := List.exists_cons_of_ne_nil (Nat.toDigits_ne_nil : Nat.toDigits 10 n ≠ [])
  have hc : c ∈ Nat.toDigits 10 n := hdigits ▸ List.mem_cons_self
  exact ⟨c, r, hdigits, Nat.isDigit_of_mem_toDigits (by decide) (by decide) hc⟩

theorem number_decimal {n : Int}
    (hn : (Nat.toDigits 10 n.natAbs).length ≤ Limits.standard.digits) {rest : Source}
    (h : Closed rest) : number .standard (source (decimal n) ++ rest) = .ok (.num n, rest) := by
  have hwhole : ∀ negative, sign (source (decimal n) ++ rest) =
      (negative, source (Nat.toDigits 10 n.natAbs) ++ rest) → withSign negative n.natAbs = n →
      number .standard (source (decimal n) ++ rest) = .ok (.num n, rest) := by
    intro negative hsign hvalue
    have hsome : (Nat.toDigits 10 n.natAbs).isEmpty = false := by simp
    simp only [number, hsign, wholePart_toDigits _ h, fraction_closed h, exponent_closed h,
      hsome, List.append_nil, Nat.ofDigitChars_ten_toDigits, hvalue, Nat.not_lt.mpr hn]
    rfl
  by_cases hneg : n < 0
  · refine hwhole true ?_ ?_
    · rw [decimal, if_pos hneg]
      rfl
    · change -(n.natAbs : Int) = n
      omega
  · refine hwhole false ?_ ?_
    · rw [decimal, if_neg hneg]
      obtain ⟨c, r, hdigits, hc⟩ := exists_digit_cons n.natAbs
      rw [hdigits]
      exact sign_of_digit hc _
    · change (n.natAbs : Int) = n
      omega

theorem reads_decimal {n : Int}
    (hn : (Nat.toDigits 10 n.natAbs).length ≤ Limits.standard.digits) :
    Reads 0 (decimal n) (.num n) := by
  obtain ⟨c, r, hdigits, hc⟩ := exists_digit_cons n.natAbs
  have hopens : opensValue c = true := by
    obtain ⟨d, hd, rfl⟩ := exists_digit hc
    interval_cases d <;> rfl
  by_cases hneg : n < 0
  · have hdecimal : decimal n = '-' :: c :: r := by rw [decimal, if_pos hneg, hdigits]
    refine ⟨⟨'-', c :: r, hdecimal, rfl⟩, fun room fuel rest _ hfuel hrest => ?_⟩
    rw [← number_decimal hn hrest, hdecimal]
    rw [hdecimal, List.length_cons] at hfuel
    obtain ⟨fuel, rfl⟩ : ∃ k, fuel = k + 1 := ⟨fuel - 1, by omega⟩
    exact value_of_minus hc room fuel _
  · have hdecimal : decimal n = c :: r := by rw [decimal, if_neg hneg, hdigits]
    refine ⟨⟨c, r, hdecimal, hopens⟩, fun room fuel rest _ hfuel hrest => ?_⟩
    rw [← number_decimal hn hrest, hdecimal]
    rw [hdecimal, List.length_cons] at hfuel
    obtain ⟨fuel, rfl⟩ : ∃ k, fuel = k + 1 := ⟨fuel - 1, by omega⟩
    exact value_of_digit hc room fuel _

/-! ### Arrays and objects -/

theorem commaSeparated_cons_cons (t t' : List Char) (ts : List (List Char)) :
    commaSeparated (t :: t' :: ts) = t ++ ',' :: commaSeparated (t' :: ts) := rfl

theorem exists_commaSeparated_cons (t : List Char) (ts : List (List Char)) :
    ∃ tail, commaSeparated (t :: ts) = t ++ tail := by
  cases ts with
  | nil => exact ⟨[], (List.append_nil t).symm⟩
  | cons t' ts => exact ⟨_, commaSeparated_cons_cons t t' ts⟩

theorem skipBlanks_commaSeparated {t : List Char} (ht : ∃ c r, t = c :: r ∧ opensValue c = true)
    (ts : List (List Char)) (s : Source) :
    skipBlanks (source (commaSeparated (t :: ts)) ++ s) = source (commaSeparated (t :: ts)) ++ s := by
  obtain ⟨tail, htail⟩ := exists_commaSeparated_cons t ts
  obtain ⟨c, r, rfl, hc⟩ := ht
  simp only [opensValue, Bool.and_eq_true, Bool.not_eq_true'] at hc
  rw [htail]
  exact skipBlanks_char hc.1.1 _

theorem items_commaSeparated {depth room fuel : Nat} {ts : List (List Char)} {vs : List Json}
    (h : List.Forall₂ (Reads depth) ts vs) (hts : ts ≠ []) (hroom : depth ≤ room)
    (hfuel : 2 * (commaSeparated ts).length + 1 ≤ fuel) (rest : Source) :
    items .standard room fuel (source (commaSeparated ts) ++ .char ']' :: rest) = .ok (vs, rest) := by
  -- Every item takes one unit of fuel for itself; the comma behind it pays for the next one.
  induction h generalizing fuel with
  | nil => exact absurd rfl hts
  | @cons t v ts vs hread hrest ih =>
      obtain ⟨fuel, rfl⟩ : ∃ n, fuel = n + 1 := ⟨fuel - 1, by omega⟩
      cases hrest with
      | nil =>
          have hlength : 2 * t.length + 1 ≤ fuel + 1 := hfuel
          have hv := hread.value_eq room fuel (.char ']' :: rest) hroom (by omega) (closed_bracket rest)
          rw [commaSeparated, items, hv]
          rfl
      | @cons t' v' ts vs hread' hrest' =>
          rw [commaSeparated_cons_cons, List.length_append, List.length_cons] at hfuel
          have hr : items .standard room fuel
              (source (commaSeparated (t' :: ts)) ++ .char ']' :: rest) = .ok (v' :: vs, rest) :=
            ih (List.cons_ne_nil t' ts) (by omega)
          have hv := hread.value_eq room fuel
            (.char ',' :: (source (commaSeparated (t' :: ts)) ++ .char ']' :: rest)) hroom (by omega)
            (closed_comma _)
          rw [commaSeparated_cons_cons, source_append, List.append_assoc, items]
          change (value .standard room fuel (source t ++
            .char ',' :: (source (commaSeparated (t' :: ts)) ++ .char ']' :: rest)) >>= _) = _
          rw [hv]
          change (items .standard room fuel
            (skipBlanks (source (commaSeparated (t' :: ts)) ++ .char ']' :: rest))).map _ = _
          rw [skipBlanks_commaSeparated hread'.opens, hr]
          rfl

theorem value_array {c : Char} (hc : opensValue c = true) (room fuel : Nat) (r : Source) :
    value .standard (room + 1) (fuel + 1) (.char '[' :: .char c :: r) =
      (items .standard room fuel (.char c :: r)).map fun p => (.arr p.1, p.2) := by
  simp only [opensValue, Bool.and_eq_true, Bool.not_eq_true', bne_iff_ne] at hc
  rw [value, if_neg (Nat.succ_ne_zero room), skipBlanks_char hc.1.1]
  split
  · next heq =>
      cases heq
      exact absurd rfl hc.1.2
  · rfl

theorem reads_array {depth : Nat} {ts : List (List Char)} {vs : List Json}
    (h : List.Forall₂ (Reads depth) ts vs) :
    Reads (depth + 1) ('[' :: (commaSeparated ts ++ [']'])) (.arr vs) := by
  refine ⟨⟨_, _, rfl, rfl⟩, fun room fuel rest hroom hfuel hrest => ?_⟩
  rw [List.length_cons, List.length_append, List.length_singleton] at hfuel
  obtain ⟨fuel, rfl⟩ : ∃ n, fuel = n + 1 := ⟨fuel - 1, by omega⟩
  obtain ⟨room, rfl⟩ : ∃ n, room = n + 1 := ⟨room - 1, by omega⟩
  cases h with
  | nil => rfl
  | @cons t v ts vs hread hmore =>
      have hitems : items .standard room fuel
          (source (commaSeparated (t :: ts)) ++ .char ']' :: rest) = .ok (v :: vs, rest) :=
        items_commaSeparated (.cons hread hmore) (List.cons_ne_nil t ts) (by omega) (by omega) rest
      obtain ⟨c, r, rfl, hc⟩ := hread.opens
      obtain ⟨tail, htail⟩ := exists_commaSeparated_cons (c :: r) ts
      rw [htail] at hitems ⊢
      change value .standard (room + 1) (fuel + 1)
        (.char '[' :: .char c :: (source (r ++ tail ++ [']']) ++ rest)) = _
      rw [value_array hc, source_append, List.append_assoc]
      exact congrArg (Except.map _) hitems

/-- A member of an object as it is written. -/
def member (m : Text × List Char) : List Char := quoted m.1 ++ ':' :: m.2

theorem member_opens (m : Text × List Char) :
    ∃ c r, member m = c :: r ∧ opensValue c = true := ⟨_, _, rfl, rfl⟩

/-- A member is read under the key that its key is read as. -/
def MemberReads (depth : Nat) (m : Text × List Char) (v : Text × Json) : Prop :=
  v.1 = m.1.joined ∧ Reads depth m.2 v.2

theorem members_member {depth room fuel : Nat} {m : Text × List Char} {v : Text × Json}
    (h : MemberReads depth m v) (hroom : depth ≤ room) (hfuel : 2 * m.2.length ≤ fuel)
    {s : Source} (hs : Closed s) :
    members .standard room (fuel + 1) (source (member m) ++ s) =
      match s with
      | .char ',' :: r =>
        (members .standard room fuel (skipBlanks r)).map fun p => (v :: p.1, p.2)
      | .char '}' :: rest => .ok ([v], rest)
      | _ => .error .malformed := by
  obtain ⟨hkey, hread⟩ := h
  have hv := hread.value_eq room fuel s hroom hfuel hs
  have hquoted : quotedText (source (m.1.elements.flatMap escape ++ ['"']) ++
      (.char ':' :: (source m.2 ++ s))) = .ok (v.1, .char ':' :: (source m.2 ++ s)) := by
    rw [quotedText_quoted, hkey]
  have hmember : source (member m) ++ s = .char '"' ::
      (source (m.1.elements.flatMap escape ++ ['"']) ++ (.char ':' :: (source m.2 ++ s))) := by
    simp [member, quoted, source]
  rw [hmember, members, hquoted]
  change (value .standard room fuel (skipBlanks (source m.2 ++ s)) >>= _) = _
  rw [hread.skipBlanks, hv]
  cases s with
  | nil => rfl
  | cons e r => rcases hs with rfl | rfl | rfl <;> rfl

theorem members_commaSeparated {depth room fuel : Nat} {ms : List (Text × List Char)}
    {vs : List (Text × Json)} (h : List.Forall₂ (MemberReads depth) ms vs) (hms : ms ≠ [])
    (hroom : depth ≤ room) (hfuel : 2 * (commaSeparated (ms.map member)).length + 1 ≤ fuel)
    (rest : Source) :
    members .standard room fuel (source (commaSeparated (ms.map member)) ++ .char '}' :: rest) =
      .ok (vs, rest) := by
  induction h generalizing fuel with
  | nil => exact absurd rfl hms
  | @cons m v ms vs hread hrest ih =>
      obtain ⟨fuel, rfl⟩ : ∃ n, fuel = n + 1 := ⟨fuel - 1, by omega⟩
      have hvalue : m.2.length ≤ (member m).length := by
        rw [member, List.length_append, List.length_cons]
        omega
      cases hrest with
      | nil =>
          have hlength : 2 * (member m).length + 1 ≤ fuel + 1 := hfuel
          exact members_member hread hroom (by omega) (closed_brace rest)
      | @cons m' v' ms vs hread' hrest' =>
          rw [List.map_cons, List.map_cons, commaSeparated_cons_cons, List.length_append,
            List.length_cons] at hfuel
          have hr : members .standard room fuel
              (source (commaSeparated ((m' :: ms).map member)) ++ .char '}' :: rest) =
                .ok (v' :: vs, rest) :=
            ih (List.cons_ne_nil m' ms) (by rw [List.map_cons]; omega)
          rw [List.map_cons, List.map_cons, commaSeparated_cons_cons, source_append,
            List.append_assoc]
          refine (members_member hread hroom (by omega) (closed_comma _)).trans ?_
          change (members .standard room fuel (skipBlanks
            (source (commaSeparated (member m' :: ms.map member)) ++ .char '}' :: rest))).map _ = _
          rw [skipBlanks_commaSeparated (member_opens m'), ← List.map_cons, hr]
          rfl

theorem value_object {c : Char} (hc : opensValue c = true) (room fuel : Nat) (r : Source) :
    value .standard (room + 1) (fuel + 1) (.char '{' :: .char c :: r) =
      (members .standard room fuel (.char c :: r)).map fun p =>
        (.obj (Listing.ofEntries p.1), p.2) := by
  simp only [opensValue, Bool.and_eq_true, Bool.not_eq_true', bne_iff_ne] at hc
  rw [value, if_neg (Nat.succ_ne_zero room), skipBlanks_char hc.1.1]
  split
  · next heq =>
      cases heq
      exact absurd rfl hc.2
  · rfl

theorem reads_object {depth : Nat} {ms : List (Text × List Char)} {vs : List (Text × Json)}
    (h : List.Forall₂ (MemberReads depth) ms vs) (hkeys : (vs.map Prod.fst).Nodup) :
    Reads (depth + 1) ('{' :: (commaSeparated (ms.map member) ++ ['}'])) (.obj vs) := by
  refine ⟨⟨_, _, rfl, rfl⟩, fun room fuel rest hroom hfuel hrest => ?_⟩
  rw [List.length_cons, List.length_append, List.length_singleton] at hfuel
  obtain ⟨fuel, rfl⟩ : ∃ n, fuel = n + 1 := ⟨fuel - 1, by omega⟩
  obtain ⟨room, rfl⟩ : ∃ n, room = n + 1 := ⟨room - 1, by omega⟩
  cases h with
  | nil => rfl
  | @cons m v ms vs hread hmore =>
      have hmembers : members .standard room fuel
          (source (commaSeparated ((m :: ms).map member)) ++ .char '}' :: rest) =
            .ok (v :: vs, rest) :=
        members_commaSeparated (.cons hread hmore) (List.cons_ne_nil m ms) (by omega) (by omega) rest
      obtain ⟨tail, htail⟩ := exists_commaSeparated_cons (member m) (ms.map member)
      rw [List.map_cons, htail] at hmembers ⊢
      change value .standard (room + 1) (fuel + 1) (.char '{' :: .char '"' ::
        (source (m.1.elements.flatMap escape ++ ['"'] ++ ':' :: m.2 ++ tail ++ ['}']) ++ rest)) = _
      rw [value_object rfl, source_append, List.append_assoc]
      refine (congrArg (Except.map _) hmembers).trans ?_
      change Except.ok (Json.obj (Listing.ofEntries (v :: vs)), rest) = _
      rw [Listing.ofEntries_of_nodup hkeys]

/-- **A text that stands for a value is read as that value.** -/
theorem Reads.parse {depth : Nat} {cs : List Char} {v : Json} (h : Reads depth cs v)
    (hdepth : depth ≤ Limits.standard.depth) : parse (String.ofList cs) = .ok v := by
  have hsource : (Text.ofString (String.ofList cs)).elements = source cs := by
    simp [Text.ofString, source]
  have hv := h.value_eq Limits.standard.depth (2 * (source cs).length + 2) [] hdepth
    (by simp [source]) trivial
  have hskip := h.skipBlanks []
  rw [List.append_nil] at hv hskip
  rw [Json.parse, parseText, hsource]
  simp only [hskip, hv]
  rfl

end Json

end Coinage
