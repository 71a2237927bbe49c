namespace SqlCast.Json

def hexDigit? (c : Char) : Option Nat :=
  if '0' ≤ c && c ≤ '9' then some (c.toNat - 48)
  else if 'a' ≤ c && c ≤ 'f' then some (c.toNat - 87)
  else if 'A' ≤ c && c ≤ 'F' then some (c.toNat - 55)
  else none

def unit? : List Char → Option (Nat × List Char)
  | a :: b :: c :: d :: s => do
      let a ← hexDigit? a
      let b ← hexDigit? b
      let c ← hexDigit? c
      let d ← hexDigit? d
      return (((a * 16 + b) * 16 + c) * 16 + d, s)
  | _ => none

def isLeading (u : Nat) : Bool := 0xD800 ≤ u && u < 0xDC00
def isTrailing (u : Nat) : Bool := 0xDC00 ≤ u && u < 0xE000

def trailing? : List Char → Option (Nat × List Char)
  | '\\' :: 'u' :: s => (unit? s).filter fun (u, _) => isTrailing u
  | _ => none

def codeEscape? (s : List Char) : Option (Char × List Char) := do
  let (u, s) ← unit? s
  if isTrailing u then none
  else if isLeading u then
    let (v, s) ← trailing? s
    return (Char.ofNat (0x10000 + (u - 0xD800) * 0x400 + (v - 0xDC00)), s)
  else return (Char.ofNat u, s)

def escape? : List Char → Option (Char × List Char)
  | '"' :: s => some ('"', s)
  | '\\' :: s => some ('\\', s)
  | '/' :: s => some ('/', s)
  | 'b' :: s => some ('\x08', s)
  | 'f' :: s => some ('\x0c', s)
  | 'n' :: s => some ('\n', s)
  | 'r' :: s => some ('\r', s)
  | 't' :: s => some ('\t', s)
  | 'u' :: s => codeEscape? s
  | _ => none

theorem unit?_length {s r : List Char} {u : Nat} (h : unit? s = some (u, r)) :
    r.length < s.length := by
  unfold unit? at h
  split at h
  · simp only [Option.bind_eq_bind, Option.bind_eq_some_iff, Option.pure_def, Option.some.injEq,
      Prod.mk.injEq] at h
    obtain ⟨_, _, _, _, _, _, _, _, _, rfl⟩ := h
    simp only [List.length_cons]
    omega
  · simp at h

theorem trailing?_length {s r : List Char} {u : Nat} (h : trailing? s = some (u, r)) :
    r.length < s.length := by
  unfold trailing? at h
  split at h
  · have := unit?_length (Option.filter_eq_some_iff.mp h).1
    simp only [List.length_cons]
    omega
  · simp at h

theorem codeEscape?_length {s r : List Char} {c : Char} (h : codeEscape? s = some (c, r)) :
    r.length < s.length := by
  simp only [codeEscape?, Option.bind_eq_bind, Option.bind_eq_some_iff, Option.pure_def] at h
  obtain ⟨⟨u, s₁⟩, hu, h⟩ := h
  have h₁ := unit?_length hu
  dsimp only at h
  split at h
  · simp at h
  · split at h
    · obtain ⟨⟨v, s₂⟩, hv, h⟩ := Option.bind_eq_some_iff.mp h
      have h₂ := trailing?_length hv
      simp only [Option.some.injEq, Prod.mk.injEq] at h
      rw [← h.2]
      exact Nat.lt_trans h₂ h₁
    · simp only [Option.some.injEq, Prod.mk.injEq] at h
      exact h.2 ▸ h₁

theorem escape?_length {s r : List Char} {c : Char} (h : escape? s = some (c, r)) :
    r.length < s.length := by
  unfold escape? at h
  split at h
  case h_9 => exact Nat.lt_succ_of_lt (codeEscape?_length h)
  case h_10 => simp at h
  all_goals
    simp only [Option.some.injEq, Prod.mk.injEq] at h
    simp [← h.2]

def unquote : List Char → Option (List Char × List Char)
  | [] => none
  | c :: s =>
      if c = '"' then some ([], s)
      else if c = '\\' then
        match h : escape? s with
        | none => none
        | some (d, r) =>
            have : r.length < s.length := escape?_length h
            (unquote r).map fun (cs, rest) => (d :: cs, rest)
      else if c < ' ' then none
      else (unquote s).map fun (cs, rest) => (c :: cs, rest)
termination_by s => s.length
decreasing_by all_goals simp_wf <;> omega

end SqlCast.Json
