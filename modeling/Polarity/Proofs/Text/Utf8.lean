import Polarity.Text.Utf8

/-!
# Texts come back from their bytes

The pieces of an encoded text are its characters, so decoding undoes encoding.  A
character that is read has exactly the bytes that it is written as, so nothing but
an encoded text is decoded without a loss.
-/

namespace Polarity.Text.Utf8

/-! ## Characters by their number of bytes -/

private theorem isTail_iff (byte : UInt8) :
    isTail byte = true ↔ 0x80 ≤ byte.toNat ∧ byte.toNat ≤ 0xBF := by
  simp [isTail, UInt8.le_iff_toNat_le]

private theorem opensThree_of_bounds {lead second : UInt8} (hlead : 0xE0 ≤ lead.toNat)
    (hlead' : lead.toNat ≤ 0xEF) (hsecond : 0x80 ≤ second.toNat) (hsecond' : second.toNat ≤ 0xBF)
    (hlow : lead.toNat = 0xE0 → 0xA0 ≤ second.toNat)
    (hhigh : lead.toNat = 0xED → second.toNat ≤ 0x9F) : opensThree lead second = true := by
  simp only [opensThree, ← UInt8.toNat_inj, UInt8.le_iff_toNat_le, isTail, UInt8.reduceToNat]
  split
  · simp [hlow ‹_›, hsecond']
  · split
    · simp [hhigh ‹_›, hsecond]
    · simp [hsecond, hsecond']
      omega

private theorem opensFour_of_bounds {lead second : UInt8} (hlead : 0xF0 ≤ lead.toNat)
    (hlead' : lead.toNat ≤ 0xF4) (hsecond : 0x80 ≤ second.toNat) (hsecond' : second.toNat ≤ 0xBF)
    (hlow : lead.toNat = 0xF0 → 0x90 ≤ second.toNat)
    (hhigh : lead.toNat = 0xF4 → second.toNat ≤ 0x8F) : opensFour lead second = true := by
  simp only [opensFour, ← UInt8.toNat_inj, UInt8.le_iff_toNat_le, isTail, UInt8.reduceToNat]
  split
  · simp [hlow ‹_›, hsecond']
  · split
    · simp [hhigh ‹_›, hsecond]
    · simp [hsecond, hsecond']
      omega

private theorem readPiece_one {lead : UInt8} (rest : Bytes) (hlead : lead.toNat < 0x80) :
    readPiece lead rest = (some (Char.ofNat lead.toNat), rest) := by
  unfold readPiece
  rw [if_pos (by simpa [UInt8.lt_iff_toNat_lt] using hlead)]

private theorem readPiece_two {lead second : UInt8} (rest : Bytes) (hlead : 0xC2 ≤ lead.toNat)
    (hlead' : lead.toNat ≤ 0xDF) (hsecond : isTail second = true) :
    readPiece lead (second :: rest) =
      (some (Char.ofNat (lead.toNat % 0x20 * 0x40 + tailBits second)), rest) := by
  unfold readPiece
  simp only [UInt8.lt_iff_toNat_lt, UInt8.le_iff_toNat_le, UInt8.reduceToNat, hsecond, if_true]
  rw [if_neg (by omega), if_pos (by simp; omega)]

private theorem readPiece_three {lead second third : UInt8} (rest : Bytes)
    (hlead : 0xE0 ≤ lead.toNat)
    (hlead' : lead.toNat ≤ 0xEF) (hsecond : opensThree lead second = true)
    (hthird : isTail third = true) :
    readPiece lead (second :: third :: rest) =
      (some (Char.ofNat
        ((lead.toNat % 0x10 * 0x40 + tailBits second) * 0x40 + tailBits third)), rest) := by
  unfold readPiece
  simp only [UInt8.lt_iff_toNat_lt, UInt8.le_iff_toNat_le, UInt8.reduceToNat, hsecond, hthird,
    if_true, Bool.not_true, Bool.false_eq_true, if_false]
  rw [if_neg (by omega), if_neg (by simp; omega), if_pos (by simp; omega)]

private theorem readPiece_four {lead second third fourth : UInt8} (rest : Bytes)
    (hlead : 0xF0 ≤ lead.toNat) (hlead' : lead.toNat ≤ 0xF4)
    (hsecond : opensFour lead second = true) (hthird : isTail third = true)
    (hfourth : isTail fourth = true) :
    readPiece lead (second :: third :: fourth :: rest) =
      (some (Char.ofNat
        (((lead.toNat % 0x08 * 0x40 + tailBits second) * 0x40 + tailBits third) * 0x40
          + tailBits fourth)), rest) := by
  unfold readPiece
  simp only [UInt8.lt_iff_toNat_lt, UInt8.le_iff_toNat_le, UInt8.reduceToNat, hsecond, hthird,
    hfourth, if_true, Bool.not_true, Bool.false_eq_true, if_false]
  rw [if_neg (by omega), if_neg (by simp; omega), if_neg (by simp; omega),
    if_pos (by simp; omega)]

/-! ## Texts -/

private theorem toNat_ofNat_of_lt {number : Nat} (hnumber : number < 256) :
    (UInt8.ofNat number).toNat = number := by
  simp [Nat.mod_eq_of_lt hnumber]

/-- A character reads back as itself, whatever follows it. -/
theorem readPiece_encoded (char : Char) (rest : Bytes) :
    ∃ lead tail, String.utf8EncodeChar char = lead :: tail ∧
      readPiece lead (tail ++ rest) = (some char, rest) := by
  obtain ⟨v, hv⟩ : ∃ v, char.val.toNat = v := ⟨_, rfl⟩
  have hchar : Char.ofNat v = char := by rw [← hv]; exact Char.ofNat_toNat char
  have hvalid : v < 0xD800 ∨ 0xDFFF < v ∧ v < 0x110000 := hv ▸ char.valid
  have htail : ∀ bits < 0x40, isTail (UInt8.ofNat (bits + 0x80)) = true := by
    intro bits hbits
    rw [isTail_iff, toNat_ofNat_of_lt (by omega)]
    omega
  have hbits : ∀ bits < 0x40, tailBits (UInt8.ofNat (bits + 0x80)) = bits := by
    intro bits hbits
    rw [tailBits, toNat_ofNat_of_lt (by omega)]
    omega
  simp only [String.utf8EncodeChar, hv]
  split
  · refine ⟨_, _, rfl, ?_⟩
    have hlead := toNat_ofNat_of_lt (show v < 256 by omega)
    rw [List.nil_append, readPiece_one rest (by omega), hlead, hchar]
  · split
    · refine ⟨_, _, rfl, ?_⟩
      have hlead := toNat_ofNat_of_lt (show v / 64 % 0x20 + 0xC0 < 256 by omega)
      have hnumber : (v / 64 % 0x20 + 0xC0) % 0x20 * 0x40 + v % 0x40 = v := by omega
      rw [List.cons_append, List.nil_append, readPiece_two rest (by omega) (by omega)
        (htail _ (by omega)), hlead, hbits _ (by omega), hnumber, hchar]
    · split
      · refine ⟨_, _, rfl, ?_⟩
        have hlead := toNat_ofNat_of_lt (show v / 4096 % 0x10 + 0xE0 < 256 by omega)
        have hsecond := toNat_ofNat_of_lt (show v / 64 % 0x40 + 0x80 < 256 by omega)
        have hnumber : ((v / 4096 % 0x10 + 0xE0) % 0x10 * 0x40 + v / 64 % 0x40) * 0x40 + v % 0x40 =
            v := by omega
        have hopens : opensThree (UInt8.ofNat (v / 4096 % 0x10 + 0xE0))
            (UInt8.ofNat (v / 64 % 0x40 + 0x80)) = true := by
          apply opensThree_of_bounds <;> omega
        rw [List.cons_append, List.cons_append, List.nil_append, readPiece_three rest (by omega)
          (by omega) hopens (htail _ (by omega)), hlead, hbits _ (by omega), hbits _ (by omega),
          hnumber, hchar]
      · refine ⟨_, _, rfl, ?_⟩
        have hlead := toNat_ofNat_of_lt (show v / 262144 % 0x08 + 0xF0 < 256 by omega)
        have hsecond := toNat_ofNat_of_lt (show v / 4096 % 0x40 + 0x80 < 256 by omega)
        have hnumber : (((v / 262144 % 0x08 + 0xF0) % 0x08 * 0x40 + v / 4096 % 0x40) * 0x40
            + v / 64 % 0x40) * 0x40 + v % 0x40 = v := by omega
        have hopens : opensFour (UInt8.ofNat (v / 262144 % 0x08 + 0xF0))
            (UInt8.ofNat (v / 4096 % 0x40 + 0x80)) = true := by
          apply opensFour_of_bounds <;> omega
        rw [List.cons_append, List.cons_append, List.cons_append, List.nil_append,
          readPiece_four rest (by omega) (by omega) hopens (htail _ (by omega))
            (htail _ (by omega)), hlead, hbits _ (by omega), hbits _ (by omega),
          hbits _ (by omega), hnumber, hchar]

theorem piecesFrom_encode (text : List Char) (seen : List (Option Char)) :
    piecesFrom seen (encode text) = seen.reverse ++ text.map some := by
  induction text generalizing seen with
  | nil => simp [encode, piecesFrom]
  | cons char text ih =>
      obtain ⟨lead, tail, hbytes, hpiece⟩ := readPiece_encoded char (encode text)
      have hencode : encode (char :: text) = lead :: (tail ++ encode text) := by
        rw [encode, List.flatMap_cons, hbytes]
        rfl
      rw [hencode, piecesFrom, hpiece, ih]
      simp

theorem decode?_encode (text : List Char) : decode? (encode text) = some text := by
  rw [decode?, pieces, piecesFrom_encode, List.reverse_nil, List.nil_append]
  induction text with
  | nil => rfl
  | cons char text ih => rw [List.map_cons, List.mapM_cons, ih]; rfl

theorem decodeLossy_encode (text : List Char) : decodeLossy (encode text) = text := by
  rw [decodeLossy, pieces, piecesFrom_encode, List.reverse_nil, List.nil_append, List.map_map]
  exact List.map_id text

theorem toStringLossy_ofString (text : String) : toStringLossy (ofString text) = text := by
  rw [toStringLossy, ofString, decodeLossy_encode, String.ofList_toList]

theorem toString?_ofString (text : String) : toString? (ofString text) = some text := by
  rw [toString?, ofString, decode?_encode, Option.map_some, String.ofList_toList]

/-! ## Bytes that are read -/

private theorem bounds_of_opensThree {lead second : UInt8}
    (hopens : opensThree lead second = true) :
    (0x80 ≤ second.toNat ∧ second.toNat ≤ 0xBF) ∧ (lead.toNat = 0xE0 → 0xA0 ≤ second.toNat) ∧
      (lead.toNat = 0xED → second.toNat ≤ 0x9F) := by
  simp only [opensThree, ← UInt8.toNat_inj, UInt8.le_iff_toNat_le, isTail,
    UInt8.reduceToNat] at hopens
  split at hopens
  · simp at hopens
    omega
  · split at hopens <;> simp at hopens <;> omega

private theorem bounds_of_opensFour {lead second : UInt8} (hopens : opensFour lead second = true) :
    (0x80 ≤ second.toNat ∧ second.toNat ≤ 0xBF) ∧ (lead.toNat = 0xF0 → 0x90 ≤ second.toNat) ∧
      (lead.toNat = 0xF4 → second.toNat ≤ 0x8F) := by
  simp only [opensFour, ← UInt8.toNat_inj, UInt8.le_iff_toNat_le, isTail,
    UInt8.reduceToNat] at hopens
  split at hopens
  · simp at hopens
    omega
  · split at hopens <;> simp at hopens <;> omega

private theorem toNat_val_ofNat (number : Nat)
    (hvalid : number < 0xD800 ∨ 0xDFFF < number ∧ number < 0x110000) :
    (Char.ofNat number).val.toNat = number := by
  rw [Char.ofNat, dif_pos hvalid]
  rfl

private theorem ofNat_eq_of_toNat {byte : UInt8} {number : Nat} (hbyte : number = byte.toNat) :
    UInt8.ofNat number = byte := by
  rw [hbyte, UInt8.ofNat_toNat]

private theorem encoded_one {lead : UInt8} (hlead : lead.toNat < 0x80) :
    String.utf8EncodeChar (Char.ofNat lead.toNat) = [lead] := by
  simp only [String.utf8EncodeChar, toNat_val_ofNat lead.toNat (by omega)]
  rw [if_pos (by omega), UInt8.ofNat_toNat]

private theorem encoded_two {lead second : UInt8} (hlead : 0xC2 ≤ lead.toNat ∧ lead.toNat ≤ 0xDF)
    (hsecond : isTail second = true) :
    String.utf8EncodeChar (Char.ofNat (lead.toNat % 0x20 * 0x40 + tailBits second)) =
      [lead, second] := by
  rw [isTail_iff] at hsecond
  obtain ⟨v, hv⟩ : ∃ v, lead.toNat % 0x20 * 0x40 + tailBits second = v := ⟨_, rfl⟩
  unfold tailBits at hv
  have hfirst : UInt8.ofNat (v / 64 % 0x20 + 0xC0) = lead := ofNat_eq_of_toNat (by omega)
  have hlast : UInt8.ofNat (v % 0x40 + 0x80) = second := ofNat_eq_of_toNat (by omega)
  simp only [String.utf8EncodeChar, tailBits, hv, toNat_val_ofNat v (by omega)]
  rw [if_neg (by omega), if_pos (by omega), hfirst, hlast]

private theorem encoded_three {lead second third : UInt8}
    (hlead : 0xE0 ≤ lead.toNat ∧ lead.toNat ≤ 0xEF)
    (hopens : opensThree lead second = true) (hthird : isTail third = true) :
    String.utf8EncodeChar
        (Char.ofNat ((lead.toNat % 0x10 * 0x40 + tailBits second) * 0x40 + tailBits third)) =
      [lead, second, third] := by
  obtain ⟨hsecond, hlow, hhigh⟩ := bounds_of_opensThree hopens
  rw [isTail_iff] at hthird
  obtain ⟨v, hv⟩ : ∃ v,
    (lead.toNat % 0x10 * 0x40 + tailBits second) * 0x40 + tailBits third = v := ⟨_, rfl⟩
  unfold tailBits at hv
  have hfirst : UInt8.ofNat (v / 4096 % 0x10 + 0xE0) = lead := ofNat_eq_of_toNat (by omega)
  have hmiddle : UInt8.ofNat (v / 64 % 0x40 + 0x80) = second := ofNat_eq_of_toNat (by omega)
  have hlast : UInt8.ofNat (v % 0x40 + 0x80) = third := ofNat_eq_of_toNat (by omega)
  simp only [String.utf8EncodeChar, tailBits, hv, toNat_val_ofNat v (by omega)]
  rw [if_neg (by omega), if_neg (by omega), if_pos (by omega), hfirst, hmiddle, hlast]

private theorem encoded_four {lead second third fourth : UInt8}
    (hlead : 0xF0 ≤ lead.toNat ∧ lead.toNat ≤ 0xF4) (hopens : opensFour lead second = true)
    (hthird : isTail third = true) (hfourth : isTail fourth = true) :
    String.utf8EncodeChar
        (Char.ofNat (((lead.toNat % 0x08 * 0x40 + tailBits second) * 0x40 + tailBits third) * 0x40
          + tailBits fourth)) =
      [lead, second, third, fourth] := by
  obtain ⟨hsecond, hlow, hhigh⟩ := bounds_of_opensFour hopens
  rw [isTail_iff] at hthird hfourth
  obtain ⟨v, hv⟩ : ∃ v,
    ((lead.toNat % 0x08 * 0x40 + tailBits second) * 0x40 + tailBits third) * 0x40
      + tailBits fourth = v := ⟨_, rfl⟩
  unfold tailBits at hv
  have hfirst : UInt8.ofNat (v / 262144 % 0x08 + 0xF0) = lead := ofNat_eq_of_toNat (by omega)
  have hnext : UInt8.ofNat (v / 4096 % 0x40 + 0x80) = second := ofNat_eq_of_toNat (by omega)
  have hmiddle : UInt8.ofNat (v / 64 % 0x40 + 0x80) = third := ofNat_eq_of_toNat (by omega)
  have hlast : UInt8.ofNat (v % 0x40 + 0x80) = fourth := ofNat_eq_of_toNat (by omega)
  simp only [String.utf8EncodeChar, tailBits, hv, toNat_val_ofNat v (by omega)]
  rw [if_neg (by omega), if_neg (by omega), if_neg (by omega), hfirst, hnext, hmiddle, hlast]

/-- A character that is read has the bytes that it is written as. -/
theorem eq_encoded_of_readPiece {lead : UInt8} {rest after : Bytes} {char : Char} :
    readPiece lead rest = (some char, after) →
      lead :: rest = String.utf8EncodeChar char ++ after := by
  fun_cases readPiece lead rest with
  | case1 rest hlead =>
      rintro ⟨⟩
      rw [encoded_one (by simpa [UInt8.lt_iff_toNat_lt] using hlead)]
      rfl
  | case2 _ hlead second after hsecond =>
      rintro ⟨⟩
      rw [encoded_two (by simpa [UInt8.le_iff_toNat_le] using hlead) hsecond]
      rfl
  | case6 _ _ hlead second third after hopens hthird =>
      rintro ⟨⟩
      rw [encoded_three (by simpa [UInt8.le_iff_toNat_le] using hlead) (by simpa using hopens) hthird]
      rfl
  | case12 _ _ _ hlead second third fourth after hopens hthird hfourth =>
      rintro ⟨⟩
      rw [encoded_four (by simpa [UInt8.le_iff_toNat_le] using hlead) (by simpa using hopens)
        (by simpa using hthird) hfourth]
      rfl
  | _ => simp

private theorem piecesFrom_eq_append (seen : List (Option Char)) (bytes : Bytes) :
    piecesFrom seen bytes = seen.reverse ++ pieces bytes := by
  unfold pieces
  induction hlength : bytes.length using Nat.strongRecOn generalizing seen bytes with
  | ind length ih =>
      cases bytes with
      | nil => simp [piecesFrom]
      | cons lead rest =>
          have hshorter : (readPiece lead rest).2.length < length := by
            have hrest := readPiece_length lead rest
            simp only [List.length_cons] at hlength
            omega
          rw [piecesFrom, piecesFrom, ih _ hshorter _ _ rfl, ih _ hshorter [_] _ rfl]
          simp

private theorem decode?_cons (lead : UInt8) (rest : Bytes) :
    decode? (lead :: rest) = do
      let char ← (readPiece lead rest).1
      let text ← decode? (readPiece lead rest).2
      return char :: text := by
  rw [decode?, pieces, piecesFrom, piecesFrom_eq_append, List.reverse_singleton,
    List.singleton_append, List.mapM_cons]
  rfl

theorem eq_encode_of_decode? {bytes : Bytes} {text : List Char}
    (hdecode : decode? bytes = some text) :
    bytes = encode text := by
  induction hlength : bytes.length using Nat.strongRecOn generalizing bytes text with
  | ind length ih =>
      cases bytes with
      | nil =>
          have htext : some [] = some text := by simpa [decode?, pieces, piecesFrom] using hdecode
          rw [← Option.some.inj htext]
          rfl
      | cons lead rest =>
          rw [decode?_cons] at hdecode
          obtain ⟨char, hchar, hrest⟩ := Option.bind_eq_some_iff.mp hdecode
          obtain ⟨later, hlater, htext⟩ := Option.bind_eq_some_iff.mp hrest
          obtain rfl := Option.some.inj htext
          have hshorter : (readPiece lead rest).2.length < length := by
            have hrest := readPiece_length lead rest
            simp only [List.length_cons] at hlength
            omega
          have hbytes := eq_encoded_of_readPiece (Prod.ext hchar (Eq.refl (readPiece lead rest).2))
          have hafter := ih _ hshorter hlater rfl
          exact hbytes.trans (congrArg (String.utf8EncodeChar char ++ ·) hafter)

theorem toString?_eq_none {bytes : Bytes} (hbytes : ∀ text, bytes ≠ ofString text) :
    toString? bytes = none := by
  rw [toString?, Option.map_eq_none_iff, Option.eq_none_iff_forall_ne_some]
  intro text hdecode
  apply hbytes (String.ofList text)
  rw [ofString, String.toList_ofList, eq_encode_of_decode? hdecode]

end Polarity.Text.Utf8
