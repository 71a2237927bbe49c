import SqlCast.Proofs.Json.Number
import SqlCast.Proofs.Json.Quoted

namespace SqlCast.Json

open Text Decimal

def spaces : List Char := [' ', '\n', '\t', '\r']

lemma isSpace_iff {c : Char} : isSpace c = true ↔ c ∈ spaces := by
  simp [isSpace, spaces, or_assoc]

def StringText (s content : List Char) : Prop :=
  ∃ u t v, (∀ c ∈ u, c ∈ spaces) ∧ Spells t content ∧ (∀ c ∈ v, c ∈ spaces) ∧
    s = u ++ '"' :: (t ++ '"' :: v)

def names : List (String × Status) :=
  [("success", .success), ("failure", .failure), ("overflow", .overflow), ("underflow", .underflow)]

lemma mem_names_iff {name : String} {r : Status} : (name, r) ∈ names ↔ name = r.name := by
  cases r <;> simp [names, Status.name]

lemma statusOfName?_eq_some_iff {name : List Char} {r : Status} :
    statusOfName? name = some r ↔ name = r.name.toList := by
  constructor
  · intro h
    rw [statusOfName?] at h
    have hname := List.find?_some h
    exact (beq_iff_eq.mp hname).symm
  · rintro rfl
    cases r <;> decide

lemma bare_of_mem_name (r : Status) : ∀ c ∈ r.name.toList, Bare c := by
  have hall : r.name.toList.all (fun c => decide (Bare c)) = true := by cases r <;> rfl
  intro c hc
  exact of_decide_eq_true (List.all_eq_true.mp hall c hc)

lemma bind_eq_ok_iff {α β : Type} {x : Decoded α} {f : α → Decoded β} {b : β} :
    x >>= f = .ok b ↔ ∃ a, x = .ok a ∧ f a = .ok b := by
  cases x with
  | error e => simp [bind, Except.bind]
  | ok a => simp [bind, Except.bind]

section Space

lemma dropSpace_eq_nil_iff {s : List Char} : dropSpace s = [] ↔ ∀ c ∈ s, c ∈ spaces := by
  simp only [dropSpace, List.dropWhile_eq_nil_iff, isSpace_iff]

lemma dropSpace_append {u : List Char} (hu : ∀ c ∈ u, c ∈ spaces) (s : List Char) :
    dropSpace (u ++ s) = dropSpace s :=
  List.dropWhile_append_of_pos fun c hc => isSpace_iff.mpr (hu c hc)

lemma dropSpace_eq_quote_iff {s r : List Char} :
    dropSpace s = '"' :: r ↔ ∃ u, (∀ c ∈ u, c ∈ spaces) ∧ s = u ++ '"' :: r := by
  constructor
  · intro h
    refine ⟨s.takeWhile isSpace, fun c hc => isSpace_iff.mp (List.mem_takeWhile_imp hc), ?_⟩
    rw [← h]
    exact List.takeWhile_append_dropWhile.symm
  · rintro ⟨u, hu, rfl⟩
    exact dropSpace_append hu _

end Space

section Status

lemma ne_string_of_scanNumber {negative : Bool} {s r : List Char} {v : Found}
    (h : scanNumber negative s = some (v, r)) (cs : List Char) : v ≠ .string cs := by
  rintro rfl
  simp only [scanNumber, Option.bind_eq_bind, Option.bind_eq_some_iff, Option.pure_def] at h
  obtain ⟨⟨t, s₁⟩, -, v, hv, h⟩ := h
  obtain ⟨rfl, -⟩ := Prod.mk.inj (Option.some.inj h)
  simp only [NumberToken.value?] at hv
  split at hv
  · cases hv
  · obtain ⟨x, -, hx⟩ := Option.map_eq_some_iff.mp hv
    cases hx

lemma find?_eq_string_iff {s cs r : List Char} :
    find? s = some (.string cs, r) ↔ ∃ s', s = '"' :: s' ∧ unquote s' = some (cs, r) := by
  constructor
  · intro h
    unfold find? at h
    split at h
    case h_5 s' =>
      obtain ⟨⟨cs', r'⟩, hq, heq⟩ := Option.map_eq_some_iff.mp h
      obtain ⟨hcs, rfl⟩ := Prod.mk.inj heq
      obtain rfl := Found.string.inj hcs
      exact ⟨s', rfl, hq⟩
    case h_8 => exact absurd rfl (ne_string_of_scanNumber h cs)
    case h_9 => exact absurd rfl (ne_string_of_scanNumber h cs)
    all_goals simp at h
  · rintro ⟨s', rfl, h⟩
    rw [find?, h]
    rfl

lemma scanFound_eq_string_iff {s cs r : List Char} :
    scanFound s = .ok (.string cs, r) ↔
      ∃ s', dropSpace s = '"' :: s' ∧ unquote s' = some (cs, r) := by
  rw [← find?_eq_string_iff, scanFound]
  cases find? (dropSpace s) with
  | none => simp [orMalformed]
  | some v => simp [orMalformed]

lemma scanStatus_eq_ok_iff {s rest : List Char} {r : Status} :
    scanStatus s = .ok (r, rest) ↔ scanFound s = .ok (.string r.name.toList, rest) := by
  rw [scanStatus, bind_eq_ok_iff]
  constructor
  · rintro ⟨⟨v, s₁⟩, hv, h⟩
    rw [hv]
    cases v with
    | string name =>
      dsimp only at h
      split at h
      · rename_i r' hr
        obtain ⟨rfl, rfl⟩ := Prod.mk.inj (Except.ok.inj h)
        rw [statusOfName?_eq_some_iff.mp hr]
      · cases h
    | _ => cases h
  · intro h
    refine ⟨_, h, ?_⟩
    dsimp only
    rw [statusOfName?_eq_some_iff.mpr rfl]
    rfl

lemma decodeWhole_eq_ok_iff {α : Type} {scan : List Char → Decoded (α × List Char)} {s : List Char}
    {a : α} :
    decodeWhole scan s = .ok a ↔ ∃ rest, scan s = .ok (a, rest) ∧ ∀ c ∈ rest, c ∈ spaces := by
  rw [decodeWhole, bind_eq_ok_iff]
  constructor
  · rintro ⟨⟨a', rest⟩, hscan, h⟩
    dsimp only at h
    split_ifs at h with hrest
    obtain rfl := Except.ok.inj h
    exact ⟨rest, hscan, dropSpace_eq_nil_iff.mp (List.isEmpty_iff.mp hrest)⟩
  · rintro ⟨rest, hscan, hrest⟩
    refine ⟨_, hscan, ?_⟩
    exact if_pos (List.isEmpty_iff.mpr (dropSpace_eq_nil_iff.mpr hrest))

lemma decodeStatus_eq_ok_iff {s : List Char} {r : Status} :
    decodeStatus s = .ok r ↔ StringText s r.name.toList := by
  rw [decodeStatus, decodeWhole_eq_ok_iff]
  simp only [scanStatus_eq_ok_iff, scanFound_eq_string_iff, unquote_eq_some_iff,
    dropSpace_eq_quote_iff]
  constructor
  · rintro ⟨v, ⟨_, ⟨u, hu, rfl⟩, t, ht, rfl⟩, hv⟩
    exact ⟨u, t, v, hu, ht, hv, rfl⟩
  · rintro ⟨u, t, v, hu, ht, hv, rfl⟩
    exact ⟨v, ⟨_, ⟨u, hu, rfl⟩, t, ht, rfl⟩, hv⟩

end Status

section Pair

lemma scanStatus_encodeStatus (r : Status) (rest : List Char) :
    scanStatus (encodeStatus r ++ rest) = .ok (r, rest) := by
  have hs : encodeStatus r ++ rest = '"' :: (r.name.toList ++ '"' :: rest) := by
    simp [encodeStatus]
  rw [scanStatus_eq_ok_iff, scanFound_eq_string_iff, hs]
  exact ⟨_, rfl, (Spells.self (bare_of_mem_name r)).unquote rest⟩

lemma nextElement_intChars (n : ℤ) (rest : List Char) :
    nextElement 0 (intChars n ++ rest) = .ok (intChars n ++ rest) := by
  obtain ⟨c, s, hs, hc⟩ := exists_intChars_cons n
  have hne : c ≠ ']' ∧ c ≠ ',' := by
    rcases hc with rfl | hc
    · decide
    · exact ⟨ne_of_digit hc rfl, ne_of_digit hc rfl⟩
  rw [nextElement, dropSpace_intChars, hs]
  simp [hne]

lemma scanPair_encodePair {t : Storage} {x : Decimal} (hx : t.contains x.unscaled = true)
    (r : Status) : scanPair t (encodePair x r) = .ok ((x, r), []) := by
  have hends : EndsNumber (',' :: (encodeStatus r ++ [']'])) := by
    intro c hc
    obtain rfl : ',' = c := by simpa using hc
    decide
  have hpair : encodePair x r = '[' :: (intChars x.unscaled ++ ',' :: (encodeStatus r ++ [']'])) := by
    simp [encodePair, encodeDecimal]
  rw [hpair, scanPair, bind_eq_ok_iff]
  refine ⟨(.sequence, intChars x.unscaled ++ ',' :: (encodeStatus r ++ [']'])), rfl, ?_⟩
  apply bind_eq_ok_iff.mpr ⟨_, nextElement_intChars _ _, ?_⟩
  apply bind_eq_ok_iff.mpr ⟨_, scanDecimal_intChars hends hx, ?_⟩
  apply bind_eq_ok_iff.mpr ⟨encodeStatus r ++ [']'], rfl, ?_⟩
  apply bind_eq_ok_iff.mpr ⟨_, scanStatus_encodeStatus r [']'], ?_⟩
  exact bind_eq_ok_iff.mpr ⟨[], rfl, rfl⟩

lemma decodePair_encodePair {t : Storage} {x : Decimal} (hx : t.contains x.unscaled = true)
    (r : Status) : decodePair t (encodePair x r) = .ok (x, r) :=
  decodeWhole_eq_ok_iff.mpr ⟨[], scanPair_encodePair hx r, by simp⟩

lemma encodePair_injective {t : Storage} {x y : Decimal} (hx : t.contains x.unscaled = true)
    (hy : t.contains y.unscaled = true) {r q : Status} (h : encodePair x r = encodePair y q) :
    (x, r) = (y, q) := by
  have hdecode := decodePair_encodePair hx r
  rw [h, decodePair_encodePair hy q] at hdecode
  exact (Except.ok.inj hdecode).symm

end Pair

/-- A stored value and its status survive being written and read, no two of them share a text, and
a text is a status only if it is one of the four names in quotes, however the name is escaped. -/
theorem decode_encode_pair_and_status :
    (∀ (t : Storage) (x : Decimal) (r : Status), t.contains x.unscaled = true →
        decodePair t (encodePair x r) = .ok (x, r) ∧
          ∀ (y : Decimal) (q : Status), t.contains y.unscaled = true → (x, r) ≠ (y, q) →
            encodePair x r ≠ encodePair y q) ∧
      (∀ (s : List Char) (r : Status),
        decodeStatus s = .ok r ↔ ∃ name, (name, r) ∈ names ∧ StringText s name.toList) ∧
      ∀ name r, (name, r) ∈ names → encodeStatus r = '"' :: (name.toList ++ ['"']) := by
  refine ⟨?_, ?_, ?_⟩
  · intro t x r hx
    refine ⟨decodePair_encodePair hx r, ?_⟩
    intro y q hy hne heq
    exact hne (encodePair_injective hx hy heq)
  · intro s r
    simp only [decodeStatus_eq_ok_iff, mem_names_iff, exists_eq_left]
  · intro name r hname
    rw [mem_names_iff.mp hname]
    rfl

theorem decode_encode_pair_least :
    Storage.word128.contains Storage.word128.min = true ∧
      decodePair .word128 (encodePair ⟨Storage.word128.min⟩ .underflow) =
        .ok (⟨Storage.word128.min⟩, .underflow) :=
  ⟨by decide, (decode_encode_pair_and_status.1 .word128 ⟨Storage.word128.min⟩ .underflow (by decide)).1⟩

end SqlCast.Json
