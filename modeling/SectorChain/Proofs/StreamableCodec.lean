import SectorChain.Util.Streamable

/-!
# The streamable format is canonical

Parsing undoes streaming, and whatever parses was streamed that way.
-/

namespace SectorChain.Proofs
open Lib List
open Streamable (toBytes fromBytes)

variable {bs : Bytes} {k : IntType} {α : Type}
variable {P : α → Prop} {n : ℕ} {parse : Parser α} {s : PyStr} {stream : α → Except PyError Bytes}

lemma new_eq_ok {value : ℤ} {v : FixedInt k} : k.new value = .ok v ↔ v.val = value := by
  unfold IntType.new
  constructor
  · intro h
    split at h
    · obtain rfl := Except.ok.inj h
      rfl
    · exact absurd h (by simp)
  · intro h
    subst h
    rw [dif_pos ⟨v.min_le, v.le_max⟩]

lemma streamSize_eq_ok {enc : Bytes} : streamSize n = .ok enc ↔ n < 2 ^ 32 ∧ enc = beBytes 4 n := by
  unfold streamSize
  constructor
  · intro h
    obtain ⟨size, hsize, h⟩ := bind_eq_ok.mp h
    have hval := new_eq_ok.mp hsize
    have hmax := size.le_max
    rw [hval] at hmax
    have hmax' : (n : ℤ) ≤ 2 ^ 32 - 1 := hmax
    refine ⟨by omega, ?_⟩
    rw [← Except.ok.inj h, hval, Int.toNat_natCast]
  · intro h
    obtain ⟨hlt, rfl⟩ := h
    have hmax : (n : ℤ) ≤ 2 ^ 32 - 1 := by omega
    refine bind_eq_ok.mpr ⟨⟨n, Int.natCast_nonneg n, hmax⟩, new_eq_ok.mpr rfl, ?_⟩
    rw [Int.toNat_natCast]
    rfl

lemma lawful_size : Lawful streamSize parseSize := by
  constructor
  · intro n enc henc rest
    obtain ⟨hlt, rfl⟩ := streamSize_eq_ok.mp henc
    have hmax : (n : ℤ) ≤ 2 ^ 32 - 1 := by omega
    have hmod : n % 256 ^ 4 = n := Nat.mod_eq_of_lt (by omega)
    unfold parseSize
    refine reader_bind_eq_ok.mpr ⟨_, rest, readExact_append _ (beBytes_length 4 n) rest, ?_⟩
    rw [beNat_beBytes, hmod]
    refine reader_bind_eq_ok.mpr ⟨⟨n, Int.natCast_nonneg n, hmax⟩, rest,
      reader_lift_eq_ok.mpr ⟨new_eq_ok.mpr rfl, rfl⟩, ?_⟩
    exact reader_pure_eq_ok.mpr ⟨Int.toNat_natCast n, rfl⟩
  · intro bs n rest hread
    unfold parseSize at hread
    obtain ⟨xs, mid, hxs, hafter⟩ := reader_bind_eq_ok.mp hread
    obtain ⟨size, mid', hlift, hpure⟩ := reader_bind_eq_ok.mp hafter
    obtain ⟨hn, rfl⟩ := reader_pure_eq_ok.mp hpure
    obtain ⟨hnew, rfl⟩ := reader_lift_eq_ok.mp hlift
    obtain ⟨hlen, rfl⟩ := readExact_eq_ok hxs
    have hval : n = beNat xs := by
      rw [← hn, new_eq_ok.mp hnew, Int.toNat_natCast]
    have hlt := beNat_lt xs
    rw [hlen] at hlt
    refine ⟨xs, streamSize_eq_ok.mpr ⟨by omega, ?_⟩, rfl⟩
    rw [hval, ← hlen, beBytes_beNat]

lemma lawful_bool : Lawful (fun item => .ok (streamBool item)) parseBool := by
  constructor
  · intro item enc henc rest
    obtain rfl := Except.ok.inj henc
    unfold parseBool
    cases item with
    | false => rfl
    | true => rfl
  intro bs item rest hread
  unfold parseBool at hread
  obtain ⟨xs, mid, hxs, hafter⟩ := reader_bind_eq_ok.mp hread
  obtain ⟨_, rfl⟩ := readExact_eq_ok hxs
  refine ⟨_, rfl, ?_⟩
  split at hafter
  · rename_i h0
    obtain ⟨rfl, rfl⟩ := reader_pure_eq_ok.mp hafter
    rw [h0]
    rfl
  split at hafter
  · rename_i h1
    obtain ⟨rfl, rfl⟩ := reader_pure_eq_ok.mp hafter
    rw [h1]
    rfl
  · exact absurd hafter (by simp)

lemma unpack_pack (v : FixedInt k) : k.unpack (k.pack v.val) = v.val := by
  have hlo := v.min_le
  have hhi := v.le_max
  unfold IntType.unpack IntType.pack
  cases k
  all_goals
    simp only [IntType.signed, if_true, Bool.false_eq_true, if_false]
    simp only [IntType.minValue, IntType.maxValue] at hlo hhi
  all_goals
    first
    | exact beInt_beBytesInt (by simp only [IntType.size]; omega) (by simp only [IntType.size]; omega)
    | rw [beNat_beBytesInt]; exact Int.emod_eq_of_lt hlo (by simp only [IntType.size]; omega)

lemma pack_unpack (hlen : bs.length = k.size) : k.pack (k.unpack bs) = bs := by
  unfold IntType.unpack IntType.pack
  cases hk : k.signed with
  | true =>
    rw [if_pos rfl, ← hlen]
    exact beBytesInt_beInt bs
  | false =>
    rw [if_neg Bool.false_ne_true, ← hlen]
    have hlt : (beNat bs : ℤ) < 256 ^ bs.length := by exact_mod_cast beNat_lt bs
    unfold beBytesInt
    rw [Int.emod_eq_of_lt (Int.natCast_nonneg _) hlt, Int.toNat_natCast, beBytes_beNat]

lemma int_stream (k : IntType) (v : FixedInt k) : k.stream v = .ok (k.pack v.val) := by
  unfold IntType.stream
  have hrange : decide (k.minValue ≤ v.val ∧ v.val ≤ k.maxValue) = true := by
    simp [v.min_le, v.le_max]
  cases k.asserts <;> simp [hrange]

lemma lawful_int (k : IntType) : Lawful k.stream k.parse := by
  constructor
  · intro v enc henc rest
    rw [int_stream] at henc
    obtain rfl := Except.ok.inj henc
    have hrange : decide (k.minValue ≤ v.val ∧ v.val ≤ k.maxValue) = true := by
      simp [v.min_le, v.le_max]
    unfold IntType.parse
    refine reader_bind_eq_ok.mpr ⟨_, rest, readExact_append _ (beBytesInt_length k.size v.val) rest, ?_⟩
    have hunpack : k.unpack (beBytesInt k.size v.val) = v.val := unpack_pack v
    simp only [hunpack, hrange]
    cases k.asserts with
    | true => exact reader_lift_eq_ok.mpr ⟨new_eq_ok.mpr rfl, rfl⟩
    | false => exact reader_lift_eq_ok.mpr ⟨new_eq_ok.mpr rfl, rfl⟩
  · intro bs v rest hread
    unfold IntType.parse at hread
    obtain ⟨xs, mid, hxs, hafter⟩ := reader_bind_eq_ok.mp hread
    obtain ⟨hlen, rfl⟩ := readExact_eq_ok hxs
    have hnew : ∃ mid', (liftM (k.new (k.unpack xs)) : Parser (FixedInt k)).run mid' = .ok (v, rest) ∧ mid' = mid := by
      simp only at hafter
      split at hafter
      · obtain ⟨_, mid', hassert, hafter⟩ := reader_bind_eq_ok.mp hafter
        exact ⟨mid', hafter, (reader_lift_eq_ok.mp hassert).2.symm⟩
      · exact ⟨mid, hafter, rfl⟩
    obtain ⟨mid', hlift, rfl⟩ := hnew
    obtain ⟨hnew, rfl⟩ := reader_lift_eq_ok.mp hlift
    refine ⟨xs, ?_, rfl⟩
    rw [int_stream, new_eq_ok.mp hnew, pack_unpack hlen]

lemma lawful_sizedBytes (size : ℕ) :
    Lawful (fun item : SizedBytes size => .ok item.toBytes) (parseSizedBytes size) := by
  constructor
  · intro item enc henc rest
    obtain rfl := Except.ok.inj henc
    unfold parseSizedBytes
    refine reader_bind_eq_ok.mpr ⟨_, rest, readExact_append _ item.length_eq rest, ?_⟩
    rw [dif_pos item.length_eq]
    rfl
  intro bs item rest hread
  unfold parseSizedBytes at hread
  obtain ⟨xs, mid, hxs, hafter⟩ := reader_bind_eq_ok.mp hread
  obtain ⟨hlen, rfl⟩ := readExact_eq_ok hxs
  rw [dif_pos hlen] at hafter
  obtain ⟨rfl, rfl⟩ := reader_pure_eq_ok.mp hafter
  exact ⟨xs, rfl, rfl⟩

lemma toChar_eq_ok {c : Fin 0x110000} {ch : Char} : toChar c = .ok ch ↔ ofChar ch = c := by
  unfold toChar ofChar
  constructor
  · intro h
    by_cases hvalid : c.val.isValidChar
    · rw [dif_pos hvalid] at h
      obtain rfl := Except.ok.inj h
      rfl
    · rw [dif_neg hvalid] at h
      cases h
  · intro h
    subst h
    have hvalid : ch.toNat.isValidChar := ch.valid
    rw [dif_pos hvalid]
    congr 1

lemma mapM_toChar {cs : List Char} : s.mapM toChar = .ok cs ↔ cs.map ofChar = s := by
  induction s generalizing cs with
  | nil =>
    rw [mapM_nil, except_pure, Except.ok.injEq, map_eq_nil_iff, eq_comm]
  | cons c s ih =>
    rw [mapM_cons]
    constructor
    · intro h
      obtain ⟨ch, hch, h⟩ := bind_eq_ok.mp h
      obtain ⟨cs', hcs', h⟩ := bind_eq_ok.mp h
      obtain rfl := Except.ok.inj h
      rw [map_cons, toChar_eq_ok.mp hch, ih.mp hcs']
    intro h
    cases cs with
    | nil => exact absurd h (by simp)
    | cons ch cs =>
      rw [map_cons, List.cons.injEq] at h
      rw [toChar_eq_ok.mpr h.1, ih.mpr h.2]
      rfl

lemma utf8Decode_eq_some {cs : Array Char} :
    bs.toByteArray.utf8Decode? = some cs ↔ bs = cs.toList.flatMap String.utf8EncodeChar := by
  constructor
  · intro h
    have hsome : bs.toByteArray.utf8Decode?.isSome := by rw [h]; rfl
    have hencode := @ByteArray.utf8Encode_get_utf8Decode? bs.toByteArray hsome
    simp only [h, Option.get_some] at hencode
    have hdata := congrArg (fun b : ByteArray => b.data.toList) hencode
    simpa [List.utf8Encode] using hdata.symm
  · intro h
    rw [h]
    exact utf8Decode?_utf8Encode

lemma encodeUtf8_eq_ok (s : PyStr) (bs : Bytes) : encodeUtf8 s = .ok bs ↔ decodeUtf8 bs = .ok s := by
  unfold encodeUtf8 decodeUtf8
  constructor
  · intro h
    obtain ⟨cs, hcs, h⟩ := bind_eq_ok.mp h
    have hdecode : bs.toByteArray.utf8Decode? = some cs.toArray := utf8Decode_eq_some.mpr (Except.ok.inj h).symm
    rw [hdecode, ← mapM_toChar.mp hcs]
  intro h
  split at h
  · rename_i cs hcs
    refine bind_eq_ok.mpr ⟨cs.toList, mapM_toChar.mpr (Except.ok.inj h), ?_⟩
    rw [utf8Decode_eq_some.mp hcs]
    rfl
  · exact absurd h (by simp)

lemma lawful_bytes : Lawful streamBytes parseBytes := lawful_blob _ lawful_size

lemma lawful_str : Lawful streamStr parseStr := by
  have h := lawful_via lawful_bytes encodeUtf8_eq_ok
  unfold streamBytes parseBytes at h
  unfold streamStr parseStr
  simpa using h

lemma lawful_list (h : Lawful stream parse) : Lawful (streamList stream) (parseList parse) :=
  lawful_counted lawful_size h

lemma lawful_optional (h : Lawful stream parse) : Lawful (streamOptional stream) (parseOptional parse) := by
  constructor
  · intro item enc henc rest
    unfold parseOptional
    cases item with
    | none =>
      obtain rfl := Except.ok.inj henc
      rfl
    | some item =>
      obtain ⟨enc', henc', henc⟩ := bind_eq_ok.mp henc
      obtain rfl := Except.ok.inj henc
      rw [append_assoc]
      refine reader_bind_eq_ok.mpr ⟨[1], enc' ++ rest, readExact_append _ (by rfl) _, ?_⟩
      rw [if_neg (by decide), if_pos rfl]
      exact reader_bind_eq_ok.mpr ⟨item, rest, h.read_write henc' rest, reader_pure_eq_ok.mpr ⟨rfl, rfl⟩⟩
  · intro bs item rest hread
    unfold parseOptional at hread
    obtain ⟨xs, mid, hxs, hafter⟩ := reader_bind_eq_ok.mp hread
    obtain ⟨_, rfl⟩ := readExact_eq_ok hxs
    split at hafter
    · rename_i h0
      obtain ⟨rfl, rfl⟩ := reader_pure_eq_ok.mp hafter
      exact ⟨[0], rfl, by rw [h0]⟩
    split at hafter
    · rename_i h1
      obtain ⟨a, mid', ha, hpure⟩ := reader_bind_eq_ok.mp hafter
      obtain ⟨rfl, rfl⟩ := reader_pure_eq_ok.mp hpure
      obtain ⟨enc, henc, rfl⟩ := h.write_read ha
      refine ⟨[1] ++ enc, ?_, by rw [h1, append_assoc]⟩
      simp [streamOptional, henc]
    · exact absurd hafter (by simp)

mutual
/-- Every type of the grammar has a lawful codec. -/
theorem lawful_item : (t : FType) → Lawful (streamOneItem t) (parseOneItem t)
  | .bool => lawful_bool
  | .int k => lawful_int k
  | .sizedBytes size => lawful_sizedBytes size
  | .bytes => lawful_bytes
  | .str => lawful_str
  | .optional inner => lawful_optional (lawful_item inner)
  | .list inner => lawful_list (lawful_item inner)
  | .tuple inner => lawful_items inner
  | .streamable fields => lawful_items fields

theorem lawful_items : (ts : FTypes) → Lawful (streamItems ts) (parseItems ts)
  | .nil => by
    constructor
    · intro items enc henc rest
      obtain rfl := Except.ok.inj henc
      rfl
    · intro bs items rest hread
      obtain ⟨rfl, rfl⟩ := reader_pure_eq_ok.mp hread
      exact ⟨[], rfl, rfl⟩
  | .cons head tail => lawful_pair (lawful_item head) (lawful_items tail)
end

/-- Bytes that UTF-8 takes for a code point. -/
def utf8Size (c : Fin 0x110000) : ℕ :=
  if c.val < 0x80 then 1 else if c.val < 0x800 then 2 else if c.val < 0x10000 then 3 else 4

def EncodableStr (item : PyStr) : Prop :=
  (∀ c ∈ item, c.val.isValidChar) ∧ (item.map utf8Size).sum < 2 ^ 32

def EncodableOptional {α : Type} (P : α → Prop) : Option α → Prop
  | none => True
  | some x => P x

def EncodableList {α : Type} (P : α → Prop) (item : List α) : Prop :=
  item.length < 2 ^ 32 ∧ ∀ x ∈ item, P x

mutual
/-- Every size inside fits into four bytes, and no string has a lone surrogate. -/
def Encodable : (t : FType) → Value t → Prop
  | .bool, _ => True
  | .int _, _ => True
  | .sizedBytes _, _ => True
  | .bytes, item => List.length item < 2 ^ 32
  | .str, item => EncodableStr item
  | .optional inner, item => EncodableOptional (Encodable inner) item
  | .list inner, item => EncodableList (Encodable inner) item
  | .tuple inner, item => EncodableItems inner item
  | .streamable fields, item => EncodableItems fields item

def EncodableItems : (ts : FTypes) → Values ts → Prop
  | .nil, _ => True
  | .cons head tail, items => Encodable head items.1 ∧ EncodableItems tail items.2
end

lemma exists_streamSize : (∃ enc, streamSize n = .ok enc) ↔ n < 2 ^ 32 := by
  constructor
  · intro h
    obtain ⟨enc, henc⟩ := h
    exact (streamSize_eq_ok.mp henc).1
  · intro h
    exact ⟨beBytes 4 n, streamSize_eq_ok.mpr ⟨h, rfl⟩⟩

lemma exists_bind_append {x y : Except PyError Bytes} :
    (∃ enc, (do return (← x) ++ (← y)) = Except.ok enc) ↔ (∃ enc, x = .ok enc) ∧ ∃ enc, y = .ok enc := by
  constructor
  · intro h
    obtain ⟨enc, h⟩ := h
    obtain ⟨a, ha, h⟩ := bind_eq_ok.mp h
    obtain ⟨b, hb, _⟩ := bind_eq_ok.mp h
    exact ⟨⟨a, ha⟩, ⟨b, hb⟩⟩
  · intro h
    obtain ⟨⟨a, ha⟩, ⟨b, hb⟩⟩ := h
    exact ⟨a ++ b, by simp [ha, hb]⟩

lemma exists_writeMany (h : ∀ a, (∃ enc, stream a = .ok enc) ↔ P a) (l : List α) :
    (∃ enc, writeMany stream l = .ok enc) ↔ ∀ a ∈ l, P a := by
  induction l with
  | nil => simp [writeMany]
  | cons a l ih =>
    unfold writeMany
    rw [exists_bind_append, h, ih, forall_mem_cons]

lemma exists_toChar (c : Fin 0x110000) : (∃ ch, toChar c = .ok ch) ↔ c.val.isValidChar := by
  unfold toChar
  by_cases hvalid : c.val.isValidChar
  · rw [dif_pos hvalid]
    exact iff_of_true ⟨_, rfl⟩ hvalid
  · rw [dif_neg hvalid]
    exact iff_of_false (by simp) hvalid

lemma exists_mapM_toChar (s : PyStr) : (∃ cs, s.mapM toChar = .ok cs) ↔ ∀ c ∈ s, c.val.isValidChar := by
  induction s with
  | nil => simp
  | cons c s ih =>
    rw [forall_mem_cons, ← exists_toChar, ← ih, mapM_cons]
    constructor
    · intro h
      obtain ⟨_, h⟩ := h
      obtain ⟨ch, hch, h⟩ := bind_eq_ok.mp h
      obtain ⟨cs, hcs, _⟩ := bind_eq_ok.mp h
      exact ⟨⟨ch, hch⟩, ⟨cs, hcs⟩⟩
    · intro h
      obtain ⟨⟨ch, hch⟩, ⟨cs, hcs⟩⟩ := h
      exact ⟨ch :: cs, by simp [hch, hcs]⟩

lemma length_utf8EncodeChar (ch : Char) : (String.utf8EncodeChar ch).length = utf8Size (ofChar ch) := by
  rw [String.length_utf8EncodeChar]
  unfold Char.utf8Size utf8Size ofChar Char.toNat
  simp only [UInt32.le_iff_toNat_le]
  split
  all_goals grind

lemma encodeUtf8_length (h : encodeUtf8 s = .ok bs) : bs.length = (s.map utf8Size).sum := by
  unfold encodeUtf8 at h
  obtain ⟨cs, hcs, h⟩ := bind_eq_ok.mp h
  rw [← Except.ok.inj h, ← mapM_toChar.mp hcs, length_flatMap, map_map]
  congr 1
  apply map_congr_left
  intro ch _
  exact length_utf8EncodeChar ch

lemma exists_encodeUtf8 (s : PyStr) : (∃ bs, encodeUtf8 s = .ok bs) ↔ ∀ c ∈ s, c.val.isValidChar := by
  rw [← exists_mapM_toChar]
  unfold encodeUtf8
  constructor
  · intro h
    obtain ⟨_, h⟩ := h
    obtain ⟨cs, hcs, _⟩ := bind_eq_ok.mp h
    exact ⟨cs, hcs⟩
  · intro h
    obtain ⟨cs, hcs⟩ := h
    exact ⟨_, bind_eq_ok.mpr ⟨cs, hcs, rfl⟩⟩

lemma exists_streamBytes (item : Bytes) : (∃ enc, streamBytes item = .ok enc) ↔ item.length < 2 ^ 32 := by
  rw [← exists_streamSize]
  unfold streamBytes
  constructor
  · intro h
    obtain ⟨_, h⟩ := h
    obtain ⟨enc, henc, _⟩ := bind_eq_ok.mp h
    exact ⟨enc, henc⟩
  · intro h
    obtain ⟨enc, henc⟩ := h
    exact ⟨_, bind_eq_ok.mpr ⟨enc, henc, rfl⟩⟩

lemma exists_streamStr (item : PyStr) : (∃ enc, streamStr item = .ok enc) ↔ EncodableStr item := by
  have hstream : ∀ enc, streamStr item = .ok enc ↔ ∃ bs, encodeUtf8 item = .ok bs ∧ streamBytes bs = .ok enc := by
    intro enc
    unfold streamStr
    rw [bind_eq_ok]
    rfl
  unfold EncodableStr
  constructor
  · intro h
    obtain ⟨enc, henc⟩ := h
    obtain ⟨bs, hbs, henc⟩ := (hstream enc).mp henc
    rw [← exists_encodeUtf8, ← encodeUtf8_length hbs, ← exists_streamBytes]
    exact ⟨⟨bs, hbs⟩, ⟨enc, henc⟩⟩
  intro h
  obtain ⟨bs, hbs⟩ := (exists_encodeUtf8 item).mpr h.1
  have hlen := h.2
  rw [← encodeUtf8_length hbs, ← exists_streamBytes] at hlen
  obtain ⟨enc, henc⟩ := hlen
  exact ⟨enc, (hstream enc).mpr ⟨bs, hbs, henc⟩⟩

lemma exists_streamOptional (h : ∀ a, (∃ enc, stream a = .ok enc) ↔ P a) (item : Option α) :
    (∃ enc, streamOptional stream item = .ok enc) ↔ EncodableOptional P item := by
  cases item with
  | none => simp [streamOptional, EncodableOptional]
  | some x =>
    have hone : ∃ enc, (Except.ok [1] : Except PyError Bytes) = .ok enc := ⟨[1], rfl⟩
    have hsome := (exists_bind_append.trans (and_iff_right hone)).trans (h x)
    exact hsome

lemma exists_streamList (h : ∀ a, (∃ enc, stream a = .ok enc) ↔ P a) (item : List α) :
    (∃ enc, streamList stream item = .ok enc) ↔ EncodableList P item := by
  unfold streamList EncodableList
  rw [exists_bind_append, exists_streamSize, exists_writeMany h]

mutual
/-- Streaming succeeds on exactly the encodable values. -/
theorem exists_streamOneItem : (t : FType) → (v : Value t) → ((∃ enc, streamOneItem t v = .ok enc) ↔ Encodable t v)
  | .bool, _ => iff_of_true ⟨_, rfl⟩ trivial
  | .int k, v => iff_of_true ⟨_, int_stream k v⟩ trivial
  | .sizedBytes _, _ => iff_of_true ⟨_, rfl⟩ trivial
  | .bytes, v => exists_streamBytes v
  | .str, v => exists_streamStr v
  | .optional inner, v => exists_streamOptional (exists_streamOneItem inner) v
  | .list inner, v => exists_streamList (exists_streamOneItem inner) v
  | .tuple inner, v => exists_streamItems inner v
  | .streamable fields, v => exists_streamItems fields v

theorem exists_streamItems : (ts : FTypes) → (vs : Values ts) →
    ((∃ enc, streamItems ts vs = .ok enc) ↔ EncodableItems ts vs)
  | .nil, _ => iff_of_true ⟨_, rfl⟩ trivial
  | .cons head tail, vs => by
    unfold EncodableItems
    rw [← exists_streamOneItem head vs.1, ← exists_streamItems tail vs.2]
    exact exists_bind_append
end

lemma fromBytes_eq_ok {fields : FTypes} {blob : Bytes} {v : Values fields} :
    fromBytes fields blob = .ok v ↔ (parseItems fields).run blob = .ok (v, []) := by
  unfold fromBytes
  constructor
  · intro h
    obtain ⟨⟨parsed, rest⟩, hparse, h⟩ := bind_eq_ok.mp h
    obtain ⟨_, hassert, h⟩ := bind_eq_ok.mp h
    obtain rfl := Except.ok.inj h
    have hrest : rest = [] := by
      by_contra hne
      simp [hne] at hassert
    rw [hparse, hrest]
  · intro h
    rw [h]
    rfl

/-- Streaming succeeds on exactly the encodable values, and parsing undoes it and nothing else. -/
theorem streamable_canonical (fields : FTypes) :
    (∀ v, EncodableItems fields v → ∃ blob, toBytes fields v = .ok blob ∧ fromBytes fields blob = .ok v) ∧
    (∀ v, ¬ EncodableItems fields v → ∃ e, toBytes fields v = .error e) ∧
    (∀ blob v, fromBytes fields blob = .ok v → toBytes fields v = .ok blob) := by
  have hlawful := lawful_items fields
  refine ⟨?_, ?_, ?_⟩
  · intro v hv
    obtain ⟨blob, hblob⟩ := (exists_streamItems fields v).mpr hv
    have hread := hlawful.read_write hblob []
    rw [append_nil] at hread
    exact ⟨blob, hblob, fromBytes_eq_ok.mpr hread⟩
  · intro v hv
    unfold toBytes
    cases hstream : streamItems fields v with
    | ok blob => exact absurd ((exists_streamItems fields v).mp ⟨blob, hstream⟩) hv
    | error e => exact ⟨e, rfl⟩
  · intro blob v h
    obtain ⟨enc, henc, heq⟩ := hlawful.write_read (fromBytes_eq_ok.mp h)
    rw [heq, append_nil]
    exact henc

lemma toBytes_oversize (inner : FType) (item : List (Value inner)) (h : item.length = 2 ^ 32) :
    toBytes (.cons (.list inner) .nil) (item, ()) = .error .valueError := by
  have hsize : streamSize (2 ^ 32) = .error .valueError := by decide
  have hlist : streamOneItem (.list inner) item = .error .valueError := by
    change streamList (streamOneItem inner) item = _
    unfold streamList
    rw [h, hsize]
    rfl
  change (streamOneItem (.list inner) item >>= _) = _
  rw [hlist]
  rfl

/-- A list of `2 ^ 32` booleans and the string of one lone surrogate cannot be streamed. -/
theorem toBytes_not_total :
    toBytes (.cons (.list .bool) .nil) (List.replicate (2 ^ 32) true, ()) = .error .valueError ∧
      toBytes (.cons .str .nil) ([0xD800], ()) = .error .unicodeError ∧
      ¬ ∀ (fields : FTypes) (v : Values fields), ∃ blob,
        toBytes fields v = .ok blob ∧ fromBytes fields blob = .ok v := by
  have hlist : toBytes (.cons (.list .bool) .nil) (List.replicate (2 ^ 32) true, ()) =
      .error .valueError := toBytes_oversize .bool _ length_replicate
  refine ⟨hlist, by decide, ?_⟩
  intro hall
  obtain ⟨blob, hblob, _⟩ := hall (.cons (.list .bool) .nil) (List.replicate (2 ^ 32) true, ())
  rw [hlist] at hblob
  exact absurd hblob (by simp)

/-- No encoding is the start of another one. -/
theorem encodings_self_delimiting (fields : FTypes) (v w : Values fields) (enc enc' rest rest' : Bytes)
    (hv : toBytes fields v = .ok enc) (hw : toBytes fields w = .ok enc') (h : enc ++ rest = enc' ++ rest') :
    v = w ∧ rest = rest' := by
  have hread := (lawful_items fields).read_write hv rest
  rw [h, (lawful_items fields).read_write hw rest'] at hread
  obtain ⟨rfl, rfl⟩ := Prod.mk.inj (Except.ok.inj hread)
  exact ⟨rfl, rfl⟩

theorem encodings_self_delimiting_list :
    let fields : FTypes := .cons (.list .bool) (.cons (.optional .bytes) .nil)
    let v : Values fields := ([true, false], some [9], ())
    let enc : Bytes := [0, 0, 0, 2, 1, 0, 1, 0, 0, 0, 1, 9]
    toBytes fields v = .ok enc ∧ v = v ∧ ([7] : Bytes) = [7] := by
  intro fields v enc
  have henc : toBytes fields v = .ok enc := by decide
  exact ⟨henc, encodings_self_delimiting fields v v enc enc [7] [7] henc henc rfl⟩

end SectorChain.Proofs
