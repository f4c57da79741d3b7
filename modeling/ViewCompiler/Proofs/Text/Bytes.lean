import ViewCompiler.Text.Basic

/-!
# Byte offsets of texts

A search gives its results as offsets into the UTF-8 form of a text. A text can be cut at such an
offset only if a character starts there or the text ends there.

* `Text.bytes`: the UTF-8 form of a text.
* `Text.splitAt?`: a text cut at an offset; nothing if the offset is no place between characters.
* `Text.splitAt?_eq_some_iff`, `Text.isSome_splitAt?_iff`: **a cut succeeds exactly at the valid
  positions of a string.**
* `Text.offsetAt`, `Text.slice?`: the offset of a place between characters, and the part of a text
  between two offsets.
-/

namespace ViewCompiler

namespace Text

/-- The UTF-8 form of a text. -/
def bytes (cs : List Char) : List UInt8 := cs.flatMap String.utf8EncodeChar

@[simp] theorem bytes_nil : bytes [] = [] := rfl

@[simp] theorem bytes_append (cs ds : List Char) : bytes (cs ++ ds) = bytes cs ++ bytes ds :=
  List.flatMap_append

theorem bytes_cons (c : Char) (cs : List Char) :
    bytes (c :: cs) = String.utf8EncodeChar c ++ bytes cs := rfl

@[simp] theorem length_bytes_cons (c : Char) (cs : List Char) :
    (bytes (c :: cs)).length = c.utf8Size + (bytes cs).length := by
  rw [bytes_cons, List.length_append, String.length_utf8EncodeChar]

@[simp] theorem length_bytes_replicate_blank (n : Nat) :
    (bytes (List.replicate n ' ')).length = n := by
  induction n with
  | zero => rfl
  | succ n ih =>
    rw [List.replicate_succ, length_bytes_cons, ih]
    exact Nat.add_comm 1 n

theorem utf8ByteSize_eq (s : String) : s.utf8ByteSize = (bytes s.toList).length := by
  calc s.utf8ByteSize
      = (String.ofList s.toList).toByteArray.size := by rw [String.ofList_toList]; rfl
    _ = (bytes s.toList).length := by
        rw [String.toByteArray_ofList, List.utf8Encode, List.size_toByteArray]
        rfl

theorem head?_utf8EncodeChar (c : Char) :
    ∃ byte, (String.utf8EncodeChar c).head? = some byte ∧
      (byte.toNat = c.toNat ∨ 128 ≤ byte.toNat ∧ 128 ≤ c.toNat) := by
  have hval : c.val.toNat = c.toNat := rfl
  rw [String.utf8EncodeChar]
  split
  · refine ⟨_, rfl, .inl ?_⟩
    rw [UInt8.toNat_ofNat']
    omega
  split
  · refine ⟨_, rfl, .inr ?_⟩
    rw [UInt8.toNat_ofNat']
    omega
  split
  all_goals
    refine ⟨_, rfl, .inr ?_⟩
    rw [UInt8.toNat_ofNat']
    omega

/-- No character but a semicolon starts with the byte of a semicolon. -/
theorem head?_utf8EncodeChar_eq_semicolon_iff {c : Char} :
    (String.utf8EncodeChar c).head? = some 59 ↔ c = ';' := by
  constructor
  · intro h
    obtain ⟨byte, hbyte, hcases⟩ := head?_utf8EncodeChar c
    obtain rfl : byte = 59 := Option.some.inj (hbyte.symm.trans h)
    have hnat : c.toNat = 59 := by
      rcases hcases with heq | ⟨hle, -⟩
      · exact heq.symm
      · exact absurd hle (by decide)
    exact Char.ext (UInt32.toNat_inj.1 hnat)
  · rintro rfl
    rfl

/-! ### Cuts -/

/-- A text cut at a byte offset; nothing if the offset lies within a character or behind the
text. -/
def splitAt? (offset : Nat) : List Char → Option (List Char × List Char)
  | [] => if offset = 0 then some ([], []) else none
  | c :: rest =>
    if offset = 0 then some ([], c :: rest)
    else if offset < c.utf8Size then none
    else (splitAt? (offset - c.utf8Size) rest).map fun (front, back) => (c :: front, back)

/-- The byte offset of the character at a position. -/
def offsetAt (cs : List Char) (position : Nat) : Nat := (bytes (cs.take position)).length

/-- The part of a text between two byte offsets. -/
def slice? (start stop : Nat) (cs : List Char) : Option (List Char) := do
  let (front, _) ← splitAt? stop cs
  let (_, part) ← splitAt? start front
  return part

variable {offset : Nat} {cs front back : List Char}

theorem splitAt?_append (front back : List Char) :
    splitAt? (bytes front).length (front ++ back) = some (front, back) := by
  induction front with
  | nil => cases back <;> rfl
  | cons c rest ih =>
    have hpos := c.utf8Size_pos
    rw [List.cons_append, splitAt?, length_bytes_cons, if_neg (by omega), if_neg (by omega),
      Nat.add_sub_cancel_left, ih]
    rfl

/-- **A text is cut into its parts** exactly if the offset is the number of bytes of the first. -/
theorem splitAt?_eq_some_iff :
    splitAt? offset cs = some (front, back) ↔
      cs = front ++ back ∧ (bytes front).length = offset := by
  constructor
  · intro h
    induction cs generalizing offset front with
    | nil =>
      rw [splitAt?] at h
      split at h
      · next hzero =>
        obtain ⟨rfl, rfl⟩ := Prod.mk.inj (Option.some.inj h)
        exact ⟨rfl, hzero.symm⟩
      · cases h
    | cons c rest ih =>
      rw [splitAt?] at h
      split at h
      · next hzero =>
        obtain ⟨rfl, rfl⟩ := Prod.mk.inj (Option.some.inj h)
        exact ⟨rfl, hzero.symm⟩
      split at h
      · cases h
      · next hle =>
        obtain ⟨⟨first, last⟩, hsplit, hparts⟩ := Option.map_eq_some_iff.1 h
        obtain ⟨rfl, rfl⟩ := Prod.mk.inj hparts
        obtain ⟨rfl, hlength⟩ := ih hsplit
        exact ⟨rfl, by rw [length_bytes_cons, hlength]; omega⟩
  · rintro ⟨rfl, rfl⟩
    exact splitAt?_append front back

/-- **A cut succeeds exactly at the valid positions of a string.** -/
theorem isSome_splitAt?_iff {s : String} :
    (splitAt? offset s.toList).isSome = true ↔ String.Pos.Raw.IsValid s ⟨offset⟩ := by
  rw [String.Pos.Raw.isValid_iff_exists_append, Option.isSome_iff_exists]
  constructor
  · rintro ⟨⟨front, back⟩, h⟩
    obtain ⟨hparts, hlength⟩ := splitAt?_eq_some_iff.1 h
    refine ⟨String.ofList front, String.ofList back, ?_, ?_⟩
    · rw [← String.ofList_append, ← hparts, String.ofList_toList]
    · rw [← hlength]
      exact congrArg String.Pos.Raw.mk
        (by rw [utf8ByteSize_eq, String.toList_ofList])
  · rintro ⟨first, second, rfl, hoffset⟩
    refine ⟨(first.toList, second.toList), splitAt?_eq_some_iff.2 ⟨String.toList_append, ?_⟩⟩
    rw [← utf8ByteSize_eq]
    exact (congrArg String.Pos.Raw.byteIdx hoffset).symm

theorem slice?_append (before part after : List Char) :
    slice? (bytes before).length (bytes (before ++ part)).length (before ++ part ++ after) =
      some part := by
  simp only [slice?, splitAt?_append, Option.bind_eq_bind, Option.bind_some, Option.pure_def]

theorem slice?_zero (part after : List Char) :
    slice? 0 (bytes part).length (part ++ after) = some part := slice?_append [] part after

end Text

end ViewCompiler
