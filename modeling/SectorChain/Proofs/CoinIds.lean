import SectorChain.Proofs.BlockRoots
import SectorChain.Proofs.MerkleSoundness

/-!
# Coin ids

What the hash of a coin and the hash of a list of coins commit to.
-/

namespace SectorChain.Proofs

open Lib List

variable {c c' : Coin} {coins coins' : List Coin}

lemma beNat_intToBytes (n : ℕ) : beNat (intToBytes n) = n := by
  unfold intToBytes
  split
  · rename_i hzero
    rw [hzero, beNat_nil]
  rw [beNat_beBytes]
  apply Nat.mod_eq_of_lt
  have hsize : n < 2 ^ n.size := Nat.lt_size_self n
  have hle : n.size ≤ 8 * ((n.size + 8) / 8) := by omega
  calc n < 2 ^ n.size := hsize
    _ ≤ 2 ^ (8 * ((n.size + 8) / 8)) := Nat.pow_le_pow_right (by decide) hle
    _ = 256 ^ ((n.size + 8) / 8) := by rw [Nat.pow_mul]

lemma beInt_intToBytes (n : ℕ) : beInt (intToBytes n) = n := by
  unfold beInt
  rw [beNat_intToBytes, if_pos]
  unfold intToBytes
  split
  · rename_i hzero
    rw [hzero]
    decide
  have hsize : n < 2 ^ n.size := Nat.lt_size_self n
  have hle : n.size + 1 ≤ 8 * ((n.size + 8) / 8) := by omega
  rw [beBytes_length]
  calc 2 * n < 2 * 2 ^ n.size := by omega
    _ = 2 ^ (n.size + 1) := by rw [Nat.pow_succ, Nat.mul_comm]
    _ ≤ 2 ^ (8 * ((n.size + 8) / 8)) := Nat.pow_le_pow_right (by decide) hle
    _ = 256 ^ ((n.size + 8) / 8) := by rw [Nat.pow_mul]

lemma preimage_injective (h : c.preimage = c'.preimage) : c = c' := by
  obtain ⟨hids, hamount⟩ := append_inj h (by simp)
  obtain ⟨hparent, hpuzzle⟩ := append_inj hids (by simp)
  have hamount' : c.amount = c'.amount := by
    rw [← beNat_intToBytes c.amount, hamount, beNat_intToBytes]
  cases c
  cases c'
  cases SizedBytes.toBytes_injective hparent
  cases SizedBytes.toBytes_injective hpuzzle
  cases hamount'
  rfl

variable {sha256 : Bytes → Bytes32} {inputs : List Bytes}

lemma eq_of_name_eq (hfree : CollisionFree sha256 inputs) (hc : c.preimage ∈ inputs)
    (hc' : c'.preimage ∈ inputs) (h : c.name sha256 = c'.name sha256) : c = c' :=
  preimage_injective (hfree.injective _ hc _ hc' h)

def listPreimage (sha256 : Bytes → Bytes32) (coins : List Coin) : Bytes :=
  (sortByNameStr sha256 coins).flatMap fun coin => (coin.name sha256).toBytes

lemma mem_sortByNameStr : c ∈ sortByNameStr sha256 coins ↔ c ∈ coins :=
  (perm_insertionSort _ coins).mem_iff

lemma flatMap_toBytes_injective {xs ys : List Bytes32}
    (h : xs.flatMap SizedBytes.toBytes = ys.flatMap SizedBytes.toBytes) : xs = ys := by
  induction xs generalizing ys with
  | nil =>
    cases ys with
    | nil => rfl
    | cons y ys =>
      have hlength := congrArg List.length h
      simp at hlength
      omega
  | cons x xs ih =>
    cases ys with
    | nil =>
      have hlength := congrArg List.length h
      simp at hlength
    | cons y ys =>
      obtain ⟨hhead, htail⟩ := append_inj h (by simp)
      rw [SizedBytes.toBytes_injective hhead, ih htail]

lemma eq_of_names_eq (hfree : CollisionFree sha256 inputs)
    (hcoins : ∀ c ∈ coins, c.preimage ∈ inputs) (hcoins' : ∀ c ∈ coins', c.preimage ∈ inputs)
    (h : coins.map (Coin.name sha256) = coins'.map (Coin.name sha256)) : coins = coins' := by
  induction coins generalizing coins' with
  | nil => exact (map_eq_nil_iff.mp h.symm).symm
  | cons c coins ih =>
    cases coins' with
    | nil => cases h
    | cons c' coins' =>
      obtain ⟨hname, hnames⟩ := List.cons.inj h
      rw [eq_of_name_eq hfree (hcoins c mem_cons_self) (hcoins' c' mem_cons_self) hname,
        ih (fun x hx => hcoins x (mem_cons_of_mem c hx))
          (fun x hx => hcoins' x (mem_cons_of_mem c' hx)) hnames]

lemma perm_of_hashCoinList_eq (hfree : CollisionFree sha256 inputs)
    (hcoins : ∀ c ∈ coins, c.preimage ∈ inputs) (hcoins' : ∀ c ∈ coins', c.preimage ∈ inputs)
    (hlist : listPreimage sha256 coins ∈ inputs) (hlist' : listPreimage sha256 coins' ∈ inputs)
    (h : hashCoinList sha256 coins = hashCoinList sha256 coins') : coins.Perm coins' := by
  have hpreimage := hfree.injective _ hlist _ hlist' h
  unfold listPreimage at hpreimage
  rw [← flatMap_map (Coin.name sha256) SizedBytes.toBytes,
    ← flatMap_map (Coin.name sha256) SizedBytes.toBytes] at hpreimage
  have hnames := flatMap_toBytes_injective hpreimage
  have hsorted : sortByNameStr sha256 coins = sortByNameStr sha256 coins' :=
    eq_of_names_eq hfree (fun c hc => hcoins c (mem_sortByNameStr.mp hc))
      (fun c hc => hcoins' c (mem_sortByNameStr.mp hc)) hnames
  have hperm : ∀ l : List Coin, (sortByNameStr sha256 l).Perm l := perm_insertionSort _
  exact (hperm coins).symm.trans (hsorted ▸ hperm coins')

end SectorChain.Proofs
