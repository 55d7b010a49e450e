import SectorChain.FullNode.BundleTools
import SectorChain.Proofs.CoinIds

/-!
# What the generator of a bundle says
-/

namespace SectorChain.Proofs

open Lib List Option
open SExp (fromStream atomFromStream readBytes atomAsBin fromBytes)

variable {b : UInt8} {blob bs rest : Bytes} {depth size : ℕ} {v : SExp}

lemma readBytes_append (h : readBytes size bs = some (blob, rest))
    (t : Bytes) : readBytes size (bs ++ t) = some (blob, rest ++ t) := by
  unfold readBytes at h ⊢
  split at h
  · cases h
  · cases h
    rw [length_append, if_neg (by omega), take_append_of_le_length (by omega), drop_append_of_le_length (by omega)]

lemma readBytes_left {t : Bytes} (h : bs.length = size) : readBytes size (bs ++ t) = some (bs, t) := by
  subst h
  rw [readBytes, if_neg (by rw [length_append]; omega), take_left, drop_left]

lemma length_of_readBytes (h : readBytes size bs = some (blob, rest)) : rest.length ≤ bs.length := by
  unfold readBytes at h
  split at h
  · cases h
  · cases h
    rw [length_drop]
    omega

lemma atomFromStream_append (h : atomFromStream b bs = some (blob, rest)) (t : Bytes) :
    atomFromStream b (bs ++ t) = some (blob, rest ++ t) := by
  unfold atomFromStream at h ⊢
  split
  · rename_i hb
    rw [if_pos hb] at h
    cases h
    rfl
  rename_i hb
  rw [if_neg hb] at h
  split
  · rename_i hb
    rw [if_pos hb] at h
    cases h
    rfl
  rename_i hb
  rw [if_neg hb] at h
  obtain ⟨⟨sizeBlob, rest'⟩, hsize, h⟩ := bind_eq_some_iff.mp h
  refine bind_eq_some_iff.mpr ⟨(sizeBlob, rest' ++ t), readBytes_append hsize t, ?_⟩
  dsimp only at h ⊢
  split
  · rename_i hbig
    rw [if_pos hbig] at h
    cases h
  · rename_i hbig
    rw [if_neg hbig] at h
    exact readBytes_append h t

lemma length_of_atomFromStream (h : atomFromStream b bs = some (blob, rest)) : rest.length ≤ bs.length := by
  unfold atomFromStream at h
  split at h
  · cases h
    exact le_rfl
  split at h
  · cases h
    exact le_rfl
  obtain ⟨⟨sizeBlob, rest'⟩, hsize, h⟩ := bind_eq_some_iff.mp h
  dsimp only at h
  split at h
  · cases h
  · exact (length_of_readBytes h).trans (length_of_readBytes hsize)

lemma fromStream_pair : fromStream (depth + 1) (0xff :: bs) = some (v, rest) ↔
      ∃ l r mid, fromStream depth bs = some (l, mid) ∧ fromStream depth mid = some (r, rest) ∧ v = .pair l r := by
  rw [fromStream]
  constructor
  · intro h
    obtain ⟨⟨l, mid⟩, hl, h⟩ := bind_eq_some_iff.mp h
    obtain ⟨⟨r, rest'⟩, hr, h⟩ := bind_eq_some_iff.mp h
    cases h
    exact ⟨l, r, mid, hl, hr, rfl⟩
  rintro ⟨l, r, mid, hl, hr, rfl⟩
  rw [hl, bind_eq_bind, bind_some]
  dsimp only
  rw [hr]
  rfl

lemma fromStream_atom (hb : b ≠ 0xff) : fromStream (depth + 1) (b :: bs) = some (v, rest) ↔
      ∃ blob, atomFromStream b bs = some (blob, rest) ∧ v = .atom blob := by
  rw [fromStream, if_neg hb]
  constructor
  · intro h
    obtain ⟨⟨blob, rest'⟩, hblob, h⟩ := bind_eq_some_iff.mp h
    cases h
    exact ⟨blob, hblob, rfl⟩
  · rintro ⟨blob, hblob, rfl⟩
    rw [hblob]
    rfl

/-- Induction over a read that succeeded. -/
lemma fromStream_rec {P : ℕ → Bytes → SExp → Bytes → Prop}
    (pair : ∀ {depth bs l r mid rest}, P depth bs l mid → P depth mid r rest → P (depth + 1) (0xff :: bs) (.pair l r) rest)
    (atom : ∀ {depth b bs blob rest}, b ≠ 0xff → atomFromStream b bs = some (blob, rest) →
      P (depth + 1) (b :: bs) (.atom blob) rest) (h : fromStream depth bs = some (v, rest)) : P depth bs v rest := by
  induction depth generalizing bs v rest with
  | zero => cases h
  | succ depth ih =>
    cases bs with
    | nil => cases h
    | cons b bs =>
      by_cases hb : b = 0xff
      · subst hb
        obtain ⟨l, r, mid, hl, hr, rfl⟩ := fromStream_pair.mp h
        exact pair (ih hl) (ih hr)
      · obtain ⟨blob, hblob, rfl⟩ := (fromStream_atom hb).mp h
        exact atom hb hblob

lemma fromStream_append (h : fromStream depth bs = some (v, rest)) (t : Bytes) :
    fromStream depth (bs ++ t) = some (v, rest ++ t) :=
  fromStream_rec (P := fun depth bs v rest => fromStream depth (bs ++ t) = some (v, rest ++ t))
    (fun hl hr => fromStream_pair.mpr ⟨_, _, _, hl, hr, rfl⟩)
    (fun hb hblob => (fromStream_atom hb).mpr ⟨_, atomFromStream_append hblob t, rfl⟩) h

lemma fromStream_mono {depth' : ℕ} (hle : depth ≤ depth')
    (h : fromStream depth bs = some (v, rest)) : fromStream depth' bs = some (v, rest) := by
  refine fromStream_rec (P := fun depth bs v rest => ∀ depth', depth ≤ depth' → fromStream depth' bs = some (v, rest))
    (fun hl hr depth' hle => ?_) (fun hb hblob depth' hle => ?_) h depth' hle
  all_goals obtain ⟨depth', rfl⟩ := Nat.exists_eq_add_of_le' ((Nat.le_add_left 1 _).trans hle)
  · exact fromStream_pair.mpr ⟨_, _, _, hl depth' (by omega), hr depth' (by omega), rfl⟩
  · exact (fromStream_atom hb).mpr ⟨_, hblob, rfl⟩

lemma fromStream_depth (h : fromStream depth bs = some (v, rest)) :
    rest.length < bs.length ∧ fromStream (bs.length - rest.length) bs = some (v, rest) := by
  refine fromStream_rec (P := fun _ bs v rest => rest.length < bs.length ∧
    fromStream (bs.length - rest.length) bs = some (v, rest)) (fun hl hr => ?_) (fun hb hblob => ?_) h
  · obtain ⟨hmid, hl⟩ := hl
    obtain ⟨hrest, hr⟩ := hr
    rw [length_cons, Nat.succ_sub (by omega)]
    refine ⟨by omega, fromStream_pair.mpr ⟨_, _, _, ?_, fromStream_mono ?_ hr, rfl⟩⟩
    · exact fromStream_mono (by omega) hl
    · omega
  · have hlen := length_of_atomFromStream hblob
    rw [length_cons, Nat.succ_sub hlen]
    exact ⟨by omega, (fromStream_atom hb).mpr ⟨_, hblob, rfl⟩⟩

/-- The bytes are read as the value, whatever follows. -/
def Spells (bs : Bytes) (v : SExp) : Prop := ∃ depth, ∀ t, fromStream depth (bs ++ t) = some (v, t)

lemma spells_iff : Spells bs v ↔ fromBytes bs = some v := by
  unfold Spells fromBytes
  constructor
  · rintro ⟨depth, h⟩
    have hall := h []
    rw [append_nil] at hall
    have hread := (fromStream_depth hall).2
    rw [length_nil, Nat.sub_zero] at hread
    rw [hread]
  intro h
  split at h
  · rename_i v' hread
    cases h
    exact ⟨bs.length, fun t => fromStream_append hread t⟩
  · cases h

lemma Spells.pair {bs' : Bytes} {l r : SExp} (hl : Spells bs l) (hr : Spells bs' r) :
    Spells (0xff :: (bs ++ bs')) (.pair l r) := by
  obtain ⟨depth, hl⟩ := hl
  obtain ⟨depth', hr⟩ := hr
  refine ⟨max depth depth' + 1, fun t => ?_⟩
  rw [cons_append, append_assoc]
  refine fromStream_pair.mpr ⟨l, r, bs' ++ t, ?_, ?_, rfl⟩
  · exact fromStream_mono (le_max_left _ _) (hl (bs' ++ t))
  · exact fromStream_mono (le_max_right _ _) (hr t)

lemma spells_nil : Spells [0x80] (.atom []) := ⟨1, fun _ => rfl⟩

lemma spells_one : Spells [1] (.atom [1]) := ⟨1, fun _ => rfl⟩

lemma toNat_lead {base high : ℕ} (h : base + high < 0xff) : (UInt8.ofNat (base + high)).toNat = base + high := by
  rw [UInt8.toNat_ofNat']
  omega

lemma spells_sized {width base room : ℕ} {bs : Bytes}
    (hsplit : ∀ high < room, SExp.sizePrefix (UInt8.ofNat (base + high)) = (width + 1, UInt8.ofNat high))
    (hbase : 0x80 ≤ base) (hroom : base + room ≤ 0xff) (hlength : bs.length < room * 256 ^ width)
    (hlead : base + bs.length / 256 ^ width ≠ 0x80) (hsize : bs.length < 0x400000000) :
    Spells (beBytes (width + 1) (base * 256 ^ width + bs.length) ++ bs) (.atom bs) := by
  have hpos : 0 < 256 ^ width := Nat.pow_pos (by decide)
  have hhigh : bs.length / 256 ^ width < room := (Nat.div_lt_iff_lt_mul hpos).mpr hlength
  have hlt : base + bs.length / 256 ^ width < 0xff := (Nat.add_lt_add_left hhigh base).trans_le hroom
  have hnat := toNat_lead hlt
  have hdigits : beBytes (width + 1) (base * 256 ^ width + bs.length) =
      UInt8.ofNat (base + bs.length / 256 ^ width) :: beBytes width bs.length := by
    rw [beBytes, beBytes_add_mul, Nat.add_comm (base * _), Nat.add_mul_div_right _ _ hpos, Nat.add_comm base]
  have hne : UInt8.ofNat (base + bs.length / 256 ^ width) ≠ 0x80 := by
    intro heq
    rw [heq] at hnat
    exact hlead hnat.symm
  have hpair : UInt8.ofNat (base + bs.length / 256 ^ width) ≠ 0xff := by
    intro heq
    rw [heq] at hnat
    exact hlt.ne hnat.symm
  have hgt : ¬ UInt8.ofNat (base + bs.length / 256 ^ width) ≤ 0x7f := by
    rw [UInt8.le_iff_toNat_le, hnat]
    exact Nat.not_le.mpr (Nat.lt_of_lt_of_le (by decide) (hbase.trans (Nat.le_add_right _ _)))
  have hbytes : beNat (UInt8.ofNat (bs.length / 256 ^ width) :: beBytes width bs.length) = bs.length := by
    have hbyte : (UInt8.ofNat (bs.length / 256 ^ width)).toNat = bs.length / 256 ^ width := by
      rw [UInt8.toNat_ofNat', Nat.mod_eq_of_lt (hhigh.trans_le (by omega))]
    rw [beNat, hbyte, beBytes_length, beNat_beBytes, Nat.mul_comm, Nat.div_add_mod]
  refine ⟨1, fun t => ?_⟩
  rw [hdigits, cons_append, cons_append, append_assoc]
  refine (fromStream_atom hpair).mpr ⟨bs, ?_, rfl⟩
  have hread : readBytes width (beBytes width bs.length ++ (bs ++ t)) = some (beBytes width bs.length, bs ++ t) :=
    readBytes_left (beBytes_length _ _)
  rw [atomFromStream, if_neg hne, if_neg hgt, hsplit _ hhigh, Nat.add_sub_cancel, hread, bind_eq_bind, bind_some]
  dsimp only
  rw [hbytes, if_neg (by omega), readBytes_left rfl]

/-- An atom is spelled by `as_bin`. -/
lemma spells_atomAsBin (h : bs.length < 0x400000000) : Spells (atomAsBin bs) (.atom bs) := by
  unfold atomAsBin
  split
  · rename_i hnil
    rw [hnil]
    exact spells_nil
  rename_i hnil
  have hpos : 0 < bs.length := length_pos_iff.mpr hnil
  split
  · rename_i hone
    obtain ⟨b, rfl⟩ := length_eq_one_iff.mp hone.1
    have hb : b ≤ 0x7f := by simpa using hone.2
    have hb' : b.toNat ≤ 0x7f := UInt8.le_iff_toNat_le.mp hb
    have hne : b ≠ 0xff := by
      rintro rfl
      exact absurd hb' (by decide)
    have hne' : b ≠ 0x80 := by
      rintro rfl
      exact absurd hb' (by decide)
    refine ⟨1, fun t => (fromStream_atom hne).mpr ⟨[b], ?_, rfl⟩⟩
    rw [atomFromStream, if_neg hne', if_pos hb]
    rfl
  -- The sizes with one to five bytes.
  split
  · exact @spells_sized 0 0x80 0x40 bs (by decide) (by decide) (by decide) (by omega) (by omega) h
  split
  · exact @spells_sized 1 0xc0 0x20 bs (by decide) (by decide) (by decide) (by omega) (by omega) h
  split
  · exact @spells_sized 2 0xe0 0x10 bs (by decide) (by decide) (by decide) (by omega) (by omega) h
  split
  · exact @spells_sized 3 0xf0 0x8 bs (by decide) (by decide) (by decide) (by omega) (by omega) h
  · exact @spells_sized 4 0xf8 0x4 bs (by decide) (by decide) (by decide) (by omega) (by omega) h

/-- The atoms of the value are short enough to be written. -/
def Writable : SExp → Prop
  | .atom bs => bs.length < 0x400000000
  | .pair l r => Writable l ∧ Writable r

instance decidableWritable : (v : SExp) → Decidable (Writable v)
  | .atom bs => inferInstanceAs (Decidable (bs.length < 0x400000000))
  | .pair l r =>
    have := decidableWritable l
    have := decidableWritable r
    inferInstanceAs (Decidable (Writable l ∧ Writable r))

lemma spells_asBin (h : Writable v) : Spells v.asBin v := by
  induction v with
  | atom bs => exact spells_atomAsBin h
  | pair l r ihl ihr => exact (ihl h.1).pair (ihr h.2)

lemma writable_ofList {l : List SExp} (h : ∀ v ∈ l, Writable v) : Writable (.ofList l) := by
  induction l with
  | nil => exact Nat.zero_lt_succ _
  | cons v l ih =>
    exact ⟨h v mem_cons_self, ih fun w hw => h w (mem_cons_of_mem _ hw)⟩

lemma length_of_atomFromStream_blob (h : atomFromStream b bs = some (blob, rest)) : blob.length < 0x400000000 := by
  unfold atomFromStream at h
  split at h
  · cases h
    exact Nat.zero_lt_succ _
  split at h
  · cases h
    exact Nat.one_lt_succ_succ _
  obtain ⟨⟨sizeBlob, rest'⟩, -, h⟩ := bind_eq_some_iff.mp h
  dsimp only at h
  split at h
  · cases h
  unfold readBytes at h
  split at h
  · cases h
  · cases h
    rw [length_take]
    omega

lemma writable_of_fromStream (h : fromStream depth bs = some (v, rest)) : Writable v :=
  fromStream_rec (P := fun _ _ v _ => Writable v) (fun hl hr => ⟨hl, hr⟩)
    (fun _ hblob => length_of_atomFromStream_blob hblob) h

lemma Spells.writable (h : Spells bs v) : Writable v := by
  obtain ⟨depth, h⟩ := h
  exact writable_of_fromStream (h [])

lemma length_intToBytes {n : ℕ} (h : n < 2 ^ 64) : (intToBytes n).length < 0x400000000 := by
  unfold intToBytes
  split
  · decide
  · have hsize : n.size ≤ 64 := Nat.size_le.mpr h
    rw [beBytes_length]
    omega

def entryValue (cs : CoinSolution) : SExp :=
  .ofList [.atom cs.coin.parentCoinInfo.toBytes, cs.puzzleReveal.program,
    .atom (intToBytes cs.coin.amount), cs.solution.program]

lemma spells_program (p : SerializedProgram) : Spells p.buf p.program := spells_iff.mpr p.fromBytes_buf

lemma spells_entries (l : List CoinSolution) :
    Spells (l.flatMap CoinSolution.entry ++ [0x80]) (.ofList (l.map entryValue)) := by
  induction l with
  | nil => exact spells_nil
  | cons cs l ih =>
    have hparent : Spells (atomAsBin cs.coin.parentCoinInfo.toBytes)
        (.atom cs.coin.parentCoinInfo.toBytes) := spells_atomAsBin (by simp)
    have hamount : Spells (atomAsBin (intToBytes cs.coin.amount)) (.atom (intToBytes cs.coin.amount)) :=
      spells_atomAsBin (length_intToBytes cs.coin.amount_lt)
    have hspend := hparent.pair ((spells_program cs.puzzleReveal).pair (hamount.pair
      ((spells_program cs.solution).pair spells_nil)))
    have hall := hspend.pair ih
    simpa [CoinSolution.entry, entryValue, SExp.ofList] using hall

lemma fromBytes_simpleSolutionGenerator (bundle : SpendBundle) :
    fromBytes (simpleSolutionGenerator bundle).program =
      some (.pair (.atom [1]) (.pair (.ofList (bundle.coinSolutions.map entryValue)) (.atom []))) := by
  have hprogram := spells_one.pair ((spells_entries bundle.coinSolutions).pair spells_nil)
  apply spells_iff.mp
  simpa [simpleSolutionGenerator, spendBundleToSerializedCoinSolutionEntryList] using hprogram

end SectorChain.Proofs
