import SectorChain.Consensus.Header.Record

/-!
# Walks over a chain

A walk back from the tip is a recursion over the list of records.
-/

namespace SectorChain.Header

open Lib Blocks List

variable {blocks : Blocks} {σ α : Type} {r r' tip : BlockRecord} {chain older : List BlockRecord}

def Linked : List BlockRecord → Prop
  | [] => False
  | [r] => r.height = 0
  | r :: r' :: older => r.prevHash = r'.headerHash ∧ r.height = r'.height + 1 ∧ Linked (r' :: older)

lemma Linked.tail (h : Linked (r :: r' :: older)) : Linked (r' :: older) := h.2.2

lemma Linked.length (h : Linked (r :: older)) : older.length = r.height := by
  induction older generalizing r with
  | nil => exact (show r.height = 0 from h).symm
  | cons r' older ih => rw [length_cons, ih h.tail, h.2.1]

lemma Linked.height_lt (h : Linked (r :: older)) : ∀ r' ∈ older, r'.height < r.height := by
  induction older generalizing r with
  | nil => exact forall_mem_nil _
  | cons r' older ih =>
    have hlt : r'.height < r.height := by
      rw [h.2.1]
      exact Nat.lt_succ_self _
    intro r'' hmem
    rcases mem_cons.mp hmem with rfl | hmem
    · exact hlt
    · exact (ih h.tail r'' hmem).trans hlt

lemma Linked.height_le (h : Linked (r :: older)) : ∀ r' ∈ r :: older, r'.height ≤ r.height := by
  intro r' hmem
  rcases mem_cons.mp hmem with rfl | hmem
  · exact le_rfl
  · exact (h.height_lt r' hmem).le

lemma Linked.exists_height (h : Linked (r :: older)) {n : ℕ} (hn : n ≤ r.height) : ∃ r' ∈ r :: older, r'.height = n := by
  induction older generalizing r with
  | nil =>
    have hzero : r.height = 0 := h
    exact ⟨r, mem_cons_self, by omega⟩
  | cons r' older ih =>
    rcases Nat.eq_or_lt_of_le hn with rfl | hlt
    · exact ⟨r, mem_cons_self, rfl⟩
    · obtain ⟨r'', hmem, hheight⟩ := ih h.tail (by have := h.2.1; omega)
      exact ⟨r'', mem_cons_of_mem r hmem, hheight⟩

lemma Linked.eq_of_height (h : Linked (tip :: older)) (hr : r ∈ tip :: older) (hr' : r' ∈ tip :: older)
    (heq : r.height = r'.height) : r = r' := by
  induction older generalizing tip with
  | nil => rw [mem_singleton.mp hr, mem_singleton.mp hr']
  | cons b older ih =>
    rcases mem_cons.mp hr with rfl | hmem
    · rcases mem_cons.mp hr' with rfl | hmem'
      · rfl
      · exact absurd heq (h.height_lt r' hmem').ne'
    · rcases mem_cons.mp hr' with rfl | hmem'
      · exact absurd heq (h.height_lt r hmem).ne
      · exact ih h.tail hmem hmem'

lemma Linked.suffix (h : Linked chain) (hsuffix : r :: older <:+ chain) : Linked (r :: older) := by
  induction chain with
  | nil => exact h.elim
  | cons b chain ih =>
    rcases suffix_cons_iff.mp hsuffix with heq | hsuffix
    · rw [heq]
      exact h
    · cases chain with
      | nil => exact absurd (suffix_nil.mp hsuffix) (cons_ne_nil _ _)
      | cons b' chain => exact ih h.tail hsuffix

lemma Knows.suffix (h : Knows blocks chain) (hsuffix : older <:+ chain) : Knows blocks older where
  records r hr := h.records r (hsuffix.subset hr)
  genesis r hr := h.genesis r (hsuffix.subset hr)
  heights r older' hmem := h.heights r older' (hmem.trans hsuffix)

lemma Knows.tail (h : Knows blocks (r :: older)) : Knows blocks older := h.suffix (suffix_cons r older)

lemma Knows.blockRecord (h : Knows blocks chain) (hr : r ∈ chain) : blocks.blockRecord r.headerHash = .ok r := by
  unfold Blocks.blockRecord
  rw [h.records r hr]

lemma blockRecord_prev (hknows : Knows blocks (r :: r' :: older)) (hlinked : Linked (r :: r' :: older)) :
    blocks.blockRecord r.prevHash = .ok r' := by
  rw [hlinked.1]
  exact hknows.blockRecord (mem_cons_of_mem r mem_cons_self)

/-- A walk over a list of records. -/
def walkList (visit : σ → BlockRecord → Except PyError (Visit σ α)) : σ → List BlockRecord → Except PyError α
  | _, [] => .error .keyError
  | s, r :: older => do
    match ← visit s r with
    | .done a => return a
    | .back s => walkList visit s older

lemma walk_eq_walkList (hknows : Knows blocks (r :: older)) (hlinked : Linked (r :: older))
    (visit : σ → BlockRecord → Except PyError (Visit σ α)) (s : σ) :
    blocks.walk visit s r = walkList visit s (r :: older) := by
  unfold Blocks.walk
  rw [← hlinked.length]
  induction older generalizing r s with
  | nil =>
    have hgenesis : blocks.blockRecord r.prevHash = .error .keyError := by
      unfold Blocks.blockRecord
      rw [hknows.genesis r mem_cons_self hlinked]
    rw [walkFrom, walkList]
    cases visit s r with
    | error e => rfl
    | ok v =>
      cases v with
      | done a => rfl
      | back s =>
        rw [hgenesis]
        rfl
  | cons r' older ih =>
    rw [walkFrom, walkList]
    cases visit s r with
    | error e => rfl
    | ok v =>
      cases v with
      | done a => rfl
      | back s =>
        rw [blockRecord_prev hknows hlinked]
        exact ih hknows.tail hlinked.tail s

def foundRecord : Option BlockRecord → Except PyError BlockRecord
  | some r => .ok r
  | none => .error .keyError

lemma backTo_eq_find (hknows : Knows blocks (r :: older)) (hlinked : Linked (r :: older)) (stop : BlockRecord → Bool) :
    blocks.backTo stop r = foundRecord ((r :: older).find? stop) := by
  unfold Blocks.backTo
  rw [walk_eq_walkList hknows hlinked]
  have hlist : ∀ l : List BlockRecord, walkList (fun _ r => .ok (if stop r then Visit.done r else .back ())) () l =
      foundRecord (l.find? stop) := by
    intro l
    induction l with
    | nil => rfl
    | cons b l ih =>
      rw [walkList, find?_cons]
      cases stop b with
      | true => rfl
      | false => exact ih
  exact hlist _

end SectorChain.Header
