import Mathlib.Data.List.Basic

/-!
# UTF-8 on byte lists

`encode` and the strict decoder `decode`, both on lists, over the
standard library's encoder. The decoder is characterised by the encoder
(`decode_eq_some_iff`), so that every later fact is about `encode`. A cut
of a valid text after some number of bytes decodes exactly when the cut
falls on a character boundary, and then to a prefix of the text.
-/

namespace CrashMonitor.Utf8

open List

variable {cs : List Char} {c a : Char}

/-- The bytes of a text. -/
def encode (cs : List Char) : List UInt8 := cs.flatMap String.utf8EncodeChar

/-- Strict decoding: `none` unless the bytes are exactly some text's. -/
def decode (bs : List UInt8) : Option (List Char) := bs.toByteArray.utf8Decode?.map Array.toList

@[simp] theorem encode_nil : encode [] = [] := rfl

theorem toByteArray_encode (cs : List Char) : (encode cs).toByteArray = cs.utf8Encode := rfl

@[simp] theorem decode_encode (cs : List Char) : decode (encode cs) = some cs := by
  rw [decode, toByteArray_encode, List.utf8Decode?_utf8Encode]
  simp

theorem decode_eq_some_iff {bs} : decode bs = some cs ↔ encode cs = bs := by
  constructor
  · intro h
    rw [decode, Option.map_eq_some_iff] at h
    obtain ⟨arr, harr, rfl⟩ := h
    have hsome : bs.toByteArray.utf8Decode?.isSome := by rw [harr]; rfl
    have henc := ByteArray.utf8Encode_get_utf8Decode? (h := hsome)
    simp only [harr, Option.get_some] at henc
    exact toByteArray_inj.mp henc
  · rintro rfl
    exact decode_encode cs

theorem encode_injective {ds} (h : encode cs = encode ds) : cs = ds := by
  have := decode_encode cs
  rw [h, decode_encode] at this
  exact (Option.some.inj this).symm

/-- A text whose bytes are an initial part of another text's bytes is an
initial part of it. -/
theorem isPrefix_of_encode_isPrefix {ds} (h : encode ds <+: encode cs) : ds <+: cs := by
  obtain ⟨rest, hrest⟩ := h
  refine isPrefix_of_utf8Encode_append_eq_utf8Encode rest.toByteArray ?_
  rw [← toByteArray_encode, ← toByteArray_encode, ← toByteArray_append, hrest]

/-! ## Cutting a text -/

/-- The first `n` bytes of a text end on a character boundary. -/
def CutsAtBoundary (n : Nat) (cs : List Char) : Prop :=
  ∃ ds, ds <+: cs ∧ encode ds = (encode cs).take n

theorem cutsAtBoundary_iff {n} :
    CutsAtBoundary n cs ↔ (decode ((encode cs).take n)).isSome := by
  constructor
  · rintro ⟨ds, -, hds⟩
    rw [← hds, decode_encode]
    rfl
  intro h
  obtain ⟨ds, hds⟩ := Option.isSome_iff_exists.mp h
  rw [decode_eq_some_iff] at hds
  refine ⟨ds, isPrefix_of_encode_isPrefix ?_, hds⟩
  rw [hds]
  exact take_prefix n _

/-! ## ASCII bytes -/

/-- An ASCII byte is in the bytes of its own character only. -/
theorem ascii_not_mem_utf8EncodeChar {b} (hb : b.toNat < 128)
    (h : c.toNat ≠ b.toNat) : b ∉ String.utf8EncodeChar c := by
  have hv : c.val.toNat ≠ b.toNat := h
  have hne : ∀ n, n % 256 ≠ b.toNat → b ≠ .ofNat n := by
    intro n hn heq
    apply hn
    have := congrArg UInt8.toNat heq
    exact this.symm
  unfold String.utf8EncodeChar
  dsimp only
  split_ifs <;>
    simp only [mem_cons, not_mem_nil, or_false, not_or]
  · exact hne _ (by omega)
  · exact ⟨hne _ (by omega), hne _ (by omega)⟩
  · exact ⟨hne _ (by omega), hne _ (by omega), hne _ (by omega)⟩
  · exact ⟨hne _ (by omega), hne _ (by omega), hne _ (by omega), hne _ (by omega)⟩

theorem ascii_not_mem_encode {b} (hb : b.toNat < 128)
    (h : ∀ c ∈ cs, c.toNat ≠ b.toNat) : b ∉ encode cs := by
  intro hmem
  obtain ⟨c, hc, hz⟩ := mem_flatMap.mp hmem
  exact ascii_not_mem_utf8EncodeChar hb (h c hc) hz

theorem utf8EncodeChar_ascii (h : c.toNat < 128) :
    String.utf8EncodeChar c = [UInt8.ofNat c.toNat] := by
  have hv : c.val.toNat ≤ 0x7f := Nat.le_of_lt_succ h
  unfold String.utf8EncodeChar
  rw [if_pos hv]
  rfl

theorem asciiByte_not_mem (ha : a.toNat < 128) (h : c ≠ a) :
    UInt8.ofNat a.toNat ∉ String.utf8EncodeChar c := by
  have hbyte : (UInt8.ofNat a.toNat).toNat = a.toNat := by
    rw [UInt8.toNat_ofNat']
    omega
  apply ascii_not_mem_utf8EncodeChar
  · rw [hbyte]
    exact ha
  · rw [hbyte]
    exact fun heq => h (Char.toNat_inj.mp heq)

/-- The bytes up to an ASCII byte are those of the characters up to its own. -/
theorem takeWhile_encode (ha : a.toNat < 128) (cs : List Char) :
    (encode cs).takeWhile (· ≠ UInt8.ofNat a.toNat) = encode (cs.takeWhile (· ≠ a)) := by
  induction cs with
  | nil => rfl
  | cons c cs ih =>
    have hcons : encode (c :: cs) = String.utf8EncodeChar c ++ encode cs := rfl
    by_cases hc : c = a
    · rw [hc] at hcons ⊢
      rw [hcons, utf8EncodeChar_ascii ha]
      simp
    have hall : ∀ b ∈ String.utf8EncodeChar c,
        decide (b ≠ .ofNat a.toNat) = true := by
      intro b hb
      simp only [ne_eq, decide_not, Bool.not_eq_true', decide_eq_false_iff_not]
      rintro rfl
      exact asciiByte_not_mem ha hc hb
    rw [hcons, takeWhile_append_of_pos hall, ih, takeWhile_cons_of_pos (by simpa using hc)]
    rfl

/-- The last byte is an ASCII byte exactly if the last character is its own. -/
theorem getLast?_encode (ha : a.toNat < 128) (cs : List Char) :
    (encode cs).getLast? = some (UInt8.ofNat a.toNat) ↔ cs.getLast? = some a := by
  rcases eq_nil_or_concat cs with rfl | ⟨front, c, rfl⟩
  · simp
  have hlast : encode (front.concat c) = encode front ++ String.utf8EncodeChar c := by simp [encode]
  have hne : String.utf8EncodeChar c ≠ [] := String.utf8EncodeChar_ne_nil
  rw [hlast, List.getLast?_append_of_ne_nil _ hne, concat_eq_append, List.getLast?_concat]
  by_cases hc : c = a
  · rw [hc, utf8EncodeChar_ascii ha]
    simp
  constructor
  · intro h
    exact absurd (mem_of_getLast? h) (asciiByte_not_mem ha hc)
  · intro h
    exact absurd (Option.some.inj h) hc

end CrashMonitor.Utf8
