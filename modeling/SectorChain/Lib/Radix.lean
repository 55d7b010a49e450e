import Mathlib.Data.Nat.Digits.Defs

/-!
# Numbers by their digits

The most significant digit comes first.
-/

namespace SectorChain.Lib

open List

def numeral (b : ℕ) (l : List ℕ) : ℕ := Nat.ofDigits b l.reverse

variable {b : ℕ} {l l' : List ℕ}

@[simp] lemma numeral_nil (b : ℕ) : numeral b [] = 0 := rfl

@[simp] lemma numeral_singleton (b d : ℕ) : numeral b [d] = d := by
  simp [numeral]

lemma numeral_concat (b : ℕ) (l : List ℕ) (d : ℕ) : numeral b (l ++ [d]) = numeral b l * b + d := by
  rw [numeral, reverse_append]
  exact (Nat.add_comm _ _).trans (congrArg (· + d) (Nat.mul_comm _ _))

lemma numeral_lt (hb : 1 < b) (h : ∀ d ∈ l, d < b) : numeral b l < b ^ l.length := by
  have hlt := Nat.ofDigits_lt_base_pow_length (l := l.reverse) hb fun d hd => h d (mem_reverse.mp hd)
  rwa [length_reverse] at hlt

lemma numeral_injective (hb : 1 < b) (hlen : l.length = l'.length) (h : ∀ d ∈ l, d < b) (h' : ∀ d ∈ l', d < b)
    (heq : numeral b l = numeral b l') : l = l' := by
  have hrev := Nat.ofDigits_inj_of_len_eq hb (by rw [length_reverse, length_reverse, hlen])
    (fun d hd => h d (mem_reverse.mp hd)) (fun d hd => h' d (mem_reverse.mp hd)) heq
  exact reverse_inj.mp hrev

end SectorChain.Lib
