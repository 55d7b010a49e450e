import SectorChain.Lib.Except

/-!
# Canonical codecs

Reading undoes writing and no value has two encodings.
-/

namespace SectorChain.Lib

open List

variable {ε α β : Type}
variable {a : α} {l : List α} {xs : List UInt8}
variable {bs rest : List UInt8} {n : ℕ}

/-- A program that reads a value off the front of a byte string. -/
abbrev Reader (ε α : Type) := StateT (List UInt8) (Except ε) α

/-- A function that writes a value as bytes. -/
abbrev Writer (ε α : Type) := α → Except ε (List UInt8)

variable {readCount : Reader ε ℕ} {writeCount : Writer ε ℕ}

variable {read : Reader ε α} {write : Writer ε α}

lemma reader_bind_eq_ok {x : Reader ε α} {f : α → Reader ε β} {b : β} :
    (x >>= f).run bs = .ok (b, rest) ↔ ∃ a mid, x.run bs = .ok (a, mid) ∧ (f a).run mid = .ok (b, rest) := by
  rw [StateT.run_bind, bind_eq_ok]
  constructor
  · intro h
    obtain ⟨⟨a, mid⟩, hx, hf⟩ := h
    exact ⟨a, mid, hx, hf⟩
  · intro h
    obtain ⟨a, mid, hx, hf⟩ := h
    exact ⟨(a, mid), hx, hf⟩

lemma reader_pure_eq_ok {a' : α} : (pure a : Reader ε α).run bs = .ok (a', rest) ↔ a = a' ∧ bs = rest := by
  rw [StateT.run_pure, except_pure, Except.ok.injEq, Prod.mk.injEq]

lemma reader_lift_eq_ok {x : Except ε α} :
    (liftM x : Reader ε α).run bs = .ok (a, rest) ↔ x = .ok a ∧ bs = rest := by
  cases x with
  | error e =>
    constructor
    · intro h
      exact absurd h (by simp [liftM, monadLift, MonadLift.monadLift])
    · intro h
      exact absurd h.1 (by simp)
  | ok a' =>
    change Except.ok (a', bs) = _ ↔ _
    rw [Except.ok.injEq, Prod.mk.injEq, Except.ok.injEq]

/-- Exactly `n` bytes, or the exception `e`. -/
def readExact (e : ε) (n : ℕ) : Reader ε (List UInt8) :=
  fun bs => if n ≤ bs.length then .ok (bs.take n, bs.drop n) else .error e

lemma readExact_append (e : ε) (h : xs.length = n)
    (rest : List UInt8) : (readExact e n).run (xs ++ rest) = .ok (xs, rest) := by
  have hle : n ≤ (xs ++ rest).length := by
    rw [length_append]
    omega
  change (if n ≤ (xs ++ rest).length then _ else _) = _
  rw [if_pos hle, take_left' h, drop_left' h]

lemma readExact_eq_ok {e : ε} (h : (readExact e n).run bs = .ok (xs, rest)) : xs.length = n ∧ bs = xs ++ rest := by
  change (if n ≤ bs.length then _ else _) = _ at h
  split at h
  · obtain ⟨rfl, rfl⟩ := Prod.mk.inj (Except.ok.inj h)
    exact ⟨length_take_of_le ‹_›, (take_append_drop n bs).symm⟩
  · exact absurd h (by simp)

/-- Reading undoes writing, and only what was written is read. -/
structure Lawful (write : Writer ε α) (read : Reader ε α) : Prop where
  read_write : ∀ {a : α} {enc : List UInt8}, write a = .ok enc → ∀ rest, read.run (enc ++ rest) = .ok (a, rest)
  write_read : ∀ {bs : List UInt8} {a : α} {rest : List UInt8}, read.run bs = .ok (a, rest) →
    ∃ enc, write a = .ok enc ∧ bs = enc ++ rest

theorem lawful_pair {writeA : Writer ε α} {readA : Reader ε α} {writeB : Writer ε β}
    {readB : Reader ε β} (hA : Lawful writeA readA) (hB : Lawful writeB readB) :
    Lawful (fun p : α × β => do return (← writeA p.1) ++ (← writeB p.2))
      (do
        let a ← readA
        let b ← readB
        return (a, b)) := by
  constructor
  · intro p enc h rest
    obtain ⟨encA, hencA, h⟩ := bind_eq_ok.mp h
    obtain ⟨encB, hencB, h⟩ := bind_eq_ok.mp h
    obtain rfl := Except.ok.inj h
    refine reader_bind_eq_ok.mpr ⟨p.1, encB ++ rest, ?_, ?_⟩
    · rw [append_assoc]
      exact hA.read_write hencA _
    · refine reader_bind_eq_ok.mpr ⟨p.2, rest, hB.read_write hencB rest, ?_⟩
      exact reader_pure_eq_ok.mpr ⟨rfl, rfl⟩
  · intro bs p rest h
    obtain ⟨a, mid, ha, h⟩ := reader_bind_eq_ok.mp h
    obtain ⟨b, mid', hb, h⟩ := reader_bind_eq_ok.mp h
    obtain ⟨rfl, rfl⟩ := reader_pure_eq_ok.mp h
    obtain ⟨encA, hencA, rfl⟩ := hA.write_read ha
    obtain ⟨encB, hencB, rfl⟩ := hB.write_read hb
    refine ⟨encA ++ encB, ?_, (append_assoc _ _ _).symm⟩
    simp [hencA, hencB]

def readMany (read : Reader ε α) : ℕ → Reader ε (List α)
  | 0 => return []
  | n + 1 => do
    let a ← read
    let l ← readMany read n
    return a :: l

def writeMany (write : Writer ε α) : Writer ε (List α)
  | [] => return []
  | a :: l => do return (← write a) ++ (← writeMany write l)

lemma readMany_writeMany (h : Lawful write read) {enc : List UInt8} (henc : writeMany write l = .ok enc)
    (rest : List UInt8) :
    (readMany read l.length).run (enc ++ rest) = .ok (l, rest) := by
  induction l generalizing enc with
  | nil =>
    obtain rfl := Except.ok.inj henc
    rfl
  | cons a l ih =>
    obtain ⟨encA, hencA, henc⟩ := bind_eq_ok.mp henc
    obtain ⟨encL, hencL, henc⟩ := bind_eq_ok.mp henc
    obtain rfl := Except.ok.inj henc
    refine reader_bind_eq_ok.mpr ⟨a, encL ++ rest, ?_, ?_⟩
    · rw [append_assoc]
      exact h.read_write hencA _
    · exact reader_bind_eq_ok.mpr ⟨l, rest, ih hencL, reader_pure_eq_ok.mpr ⟨rfl, rfl⟩⟩

lemma writeMany_readMany (h : Lawful write read) (hread : (readMany read n).run bs = .ok (l, rest)) :
    l.length = n ∧ ∃ enc, writeMany write l = .ok enc ∧ bs = enc ++ rest := by
  induction n generalizing bs l with
  | zero =>
    obtain ⟨rfl, rfl⟩ := reader_pure_eq_ok.mp hread
    exact ⟨rfl, [], rfl, rfl⟩
  | succ n ih =>
    obtain ⟨a, mid, ha, hread⟩ := reader_bind_eq_ok.mp hread
    obtain ⟨l', mid', hl', hread⟩ := reader_bind_eq_ok.mp hread
    obtain ⟨rfl, rfl⟩ := reader_pure_eq_ok.mp hread
    obtain ⟨encA, hencA, rfl⟩ := h.write_read ha
    obtain ⟨hlen, encL, hencL, rfl⟩ := ih hl'
    refine ⟨by rw [length_cons, hlen], encA ++ encL, ?_, (append_assoc _ _ _).symm⟩
    simp [writeMany, hencA, hencL]

/-- A list behind its length. -/
theorem lawful_counted (hcount : Lawful writeCount readCount) (h : Lawful write read) :
    Lawful (fun l : List α => do return (← writeCount l.length) ++ (← writeMany write l))
      (do
        let n ← readCount
        readMany read n) := by
  constructor
  · intro l enc henc rest
    obtain ⟨encN, hencN, henc⟩ := bind_eq_ok.mp henc
    obtain ⟨encL, hencL, henc⟩ := bind_eq_ok.mp henc
    obtain rfl := Except.ok.inj henc
    refine reader_bind_eq_ok.mpr ⟨l.length, encL ++ rest, ?_, readMany_writeMany h hencL rest⟩
    rw [append_assoc]
    exact hcount.read_write hencN _
  · intro bs l rest hread
    obtain ⟨n, mid, hn, hmany⟩ := reader_bind_eq_ok.mp hread
    obtain ⟨encN, hencN, rfl⟩ := hcount.write_read hn
    obtain ⟨rfl, encL, hencL, rfl⟩ := writeMany_readMany h hmany
    refine ⟨encN ++ encL, ?_, (append_assoc _ _ _).symm⟩
    simp [hencN, hencL]

/-- A byte string behind its length. -/
theorem lawful_blob (e : ε) (hcount : Lawful writeCount readCount) :
    Lawful (fun xs : List UInt8 => do return (← writeCount xs.length) ++ xs)
      (do
        let n ← readCount
        readExact e n) := by
  constructor
  · intro xs enc henc rest
    obtain ⟨encN, hencN, henc⟩ := bind_eq_ok.mp henc
    obtain rfl := Except.ok.inj henc
    refine reader_bind_eq_ok.mpr ⟨xs.length, xs ++ rest, ?_, readExact_append e rfl rest⟩
    rw [append_assoc]
    exact hcount.read_write hencN _
  intro bs xs rest hread
  obtain ⟨n, mid, hn, hexact⟩ := reader_bind_eq_ok.mp hread
  obtain ⟨encN, hencN, rfl⟩ := hcount.write_read hn
  obtain ⟨rfl, rfl⟩ := readExact_eq_ok hexact
  refine ⟨encN ++ xs, ?_, (append_assoc _ _ _).symm⟩
  simp [hencN]

/-- Values in the place of what they are encoded as. -/
theorem lawful_via {write : Writer ε β} {read : Reader ε β} (h : Lawful write read) {encode : α → Except ε β}
    {decode : β → Except ε α} (hinv : ∀ a b, encode a = .ok b ↔ decode b = .ok a) :
    Lawful (fun a => do write (← encode a))
      (do
        let b ← read
        liftM (decode b)) := by
  constructor
  · intro a enc henc rest
    obtain ⟨b, hb, henc⟩ := bind_eq_ok.mp henc
    exact reader_bind_eq_ok.mpr ⟨b, rest, h.read_write henc rest, reader_lift_eq_ok.mpr ⟨(hinv a b).mp hb, rfl⟩⟩
  intro bs a rest hread
  obtain ⟨b, mid, hb, hlift⟩ := reader_bind_eq_ok.mp hread
  obtain ⟨hdecode, rfl⟩ := reader_lift_eq_ok.mp hlift
  obtain ⟨enc, henc, rfl⟩ := h.write_read hb
  exact ⟨enc, bind_eq_ok.mpr ⟨b, (hinv a b).mpr hdecode, henc⟩, rfl⟩

end SectorChain.Lib
