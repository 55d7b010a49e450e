import SectorChain.Consensus.MultiprocessValidation

/-!
# Validation only reads

Caches are filled with what the tables hold.
-/

namespace SectorChain.Proofs

open Lib List

/-- Only the caches and the faults to come have changed, and what is new in a cache is a row. -/
structure Reads (env : Env) (s s' : Node) : Prop where
  frame : s' = { s with
    faults := s'.faults, coinRecordCache := s'.coinRecordCache, blockCache := s'.blockCache }
  faults : s'.faults <:+ s.faults
  blockCache : ∀ h b, s'.blockCache.peek h = some b → s.blockCache.peek h = some b ∨ s.db.fullBlocks.get? h = some b
  coinRecordCache : ∀ k r, s'.coinRecordCache.peek k = some r → s.coinRecordCache.peek k = some r ∨
      k = r.name env.stdHash ∧ ∃ k', s.db.coinRecord.get? k' = some r

namespace Reads

variable {env : Env} {s s' s'' : Node}

lemma db (h : Reads env s s') : s'.db = s.db := by rw [h.frame]

lemma blocks (h : Reads env s s') : s'.blocks = s.blocks := by rw [h.frame]; rfl

lemma blockRecords (h : Reads env s s') : s'.blockRecords = s.blockRecords := by rw [h.frame]

lemma refl (s : Node) : Reads env s s :=
  ⟨rfl, suffix_refl _, fun _ _ h => .inl h, fun _ _ h => .inl h⟩

lemma trans (h : Reads env s s') (h' : Reads env s' s'') : Reads env s s'' where
  frame := by rw [h'.frame, h.frame]
  faults := h'.faults.trans h.faults
  blockCache := by
    intro k b hk
    rcases h'.blockCache k b hk with hk | hk
    · exact h.blockCache k b hk
    · rw [h.db] at hk
      exact .inr hk
  coinRecordCache := by
    intro k r hk
    rcases h'.coinRecordCache k r hk with hk | hk
    · exact h.coinRecordCache k r hk
    · rw [h.db] at hk
      exact .inr hk

end Reads

instance (env : Env) : Std.Refl (Reads env) := ⟨Reads.refl⟩

instance (env : Env) : IsTrans Node (Reads env) := ⟨fun _ _ _ => Reads.trans⟩

variable (env : Env)

lemma query_cases {α : Type} (f : Database → α) (s : Node) :
    ∃ r, exec (Node.query f) s = (r, { s with faults := s.faults.tail }) ∧
      ∀ a, r = .ok a → a = f s.db := by
  unfold Node.query Node.statement
  obtain ⟨db, saved, faults, cc, bc, ph, br, hc, hh, ses⟩ := s
  rcases faults with _ | ⟨_ | fault, faults⟩
  · simp
  · simp
  · simp

lemma keeps_query {α : Type} (f : Database → α) : Keeps (Reads env) (Node.query f) := by
  intro s
  obtain ⟨r, hrun, -⟩ := query_cases f s
  rw [hrun]
  exact ⟨rfl, tail_suffix _, fun _ _ h => .inl h, fun _ _ h => .inl h⟩

variable (hash : Bytes32) (block : FullBlock) (height : ℕ) (forkH : ℤ)

lemma keeps_getFullBlock : Keeps (Reads env) (getFullBlock hash) := by
  intro s
  have hget : exec (blockCacheGet hash) s = (.ok (s.blockCache.peek hash),
      { s with blockCache := (s.blockCache.get hash).2 }) := by
    unfold blockCacheGet
    rw [exec_mk, ← LruCache.get_fst]
  have hpeek : ∀ h b, (s.blockCache.get hash).2.peek h = some b →
      s.blockCache.peek h = some b := fun h b hb => by rwa [LruCache.peek_get] at hb
  unfold getFullBlock
  rw [exec_bind_of_ok hget]
  cases s.blockCache.peek hash with
  | some cached => exact ⟨rfl, suffix_refl _, fun h b hb => .inl (hpeek h b hb), fun _ _ h => .inl h⟩
  | none =>
    obtain ⟨r, hrun, hok⟩ := query_cases (fun db => db.fullBlocks.get? hash)
      { s with blockCache := (s.blockCache.get hash).2 }
    rw [exec_bind, hrun]
    rcases r with e | _ | block
    · exact ⟨rfl, tail_suffix _, fun h b hb => .inl (hpeek h b hb), fun _ _ h => .inl h⟩
    · exact ⟨rfl, tail_suffix _, fun h b hb => .inl (hpeek h b hb), fun _ _ h => .inl h⟩
    refine ⟨rfl, tail_suffix _, fun h b hb => ?_, fun _ _ h => .inl h⟩
    have hput := LruCache.peek_put hb
    by_cases hkey : h = hash
    · rw [if_pos hkey] at hput
      rw [hput, hkey]
      exact .inr (hok (some block) rfl).symm
    · rw [if_neg hkey] at hput
      exact .inl (hpeek h b hput)

lemma getCoinRecord_cases (coinName : Bytes32) (s : Node) : ∃ r cache faults, exec (getCoinRecord env coinName) s =
        (r, { s with coinRecordCache := cache, faults := faults }) ∧ faults <:+ s.faults ∧
      (∀ k c, cache.peek k = some c → s.coinRecordCache.peek k = some c ∨
        k = c.name env.stdHash ∧ s.db.coinRecord.get? coinName = some c ∧ r = .ok (some c)) ∧
      (∀ a, r = .ok a → a = (s.coinRecordCache.peek coinName).or (s.db.coinRecord.get? coinName)) := by
  have hget : exec (coinCacheGet coinName) s = (.ok (s.coinRecordCache.peek coinName),
      { s with coinRecordCache := (s.coinRecordCache.get coinName).2 }) := by
    unfold coinCacheGet
    rw [exec_mk, ← LruCache.get_fst]
  have hpeek : ∀ k c, (s.coinRecordCache.get coinName).2.peek k = some c →
      s.coinRecordCache.peek k = some c := fun k c hc => by rwa [LruCache.peek_get] at hc
  unfold getCoinRecord
  rw [exec_bind_of_ok hget]
  cases hcached : s.coinRecordCache.peek coinName with
  | some cached =>
    refine ⟨.ok (some cached), _, s.faults, rfl, suffix_refl _, fun k c hc => .inl (hpeek k c hc), fun a ha => ?_⟩
    cases ha
    rfl
  | none =>
    obtain ⟨r, hrun, hok⟩ := query_cases (fun db => db.coinRecord.get? coinName)
      { s with coinRecordCache := (s.coinRecordCache.get coinName).2 }
    rw [exec_bind, hrun]
    rcases r with e | _ | record
    · exact ⟨.error e, _, s.faults.tail, rfl, tail_suffix _, fun k c hc => .inl (hpeek k c hc), fun a ha => (by cases ha)⟩
    · refine ⟨.ok none, _, s.faults.tail, rfl, tail_suffix _, fun k c hc => .inl (hpeek k c hc), fun a ha => ?_⟩
      cases ha
      exact hok none rfl
    have hrow := hok (some record) rfl
    refine ⟨.ok (some record), _, s.faults.tail, rfl, tail_suffix _, fun k c hc => ?_, fun a ha => ?_⟩
    · have hput := LruCache.peek_put hc
      by_cases hkey : k = record.coin.name env.stdHash
      · rw [if_pos hkey] at hput
        rw [hput]
        exact .inr ⟨hkey, hrow.symm, rfl⟩
      · rw [if_neg hkey] at hput
        exact .inl (hpeek k c hput)
    · cases ha
      exact hrow

lemma keeps_getCoinRecord (coinName : Bytes32) : Keeps (Reads env) (getCoinRecord env coinName) := by
  intro s
  obtain ⟨r, cache, faults, hrun, hfaults, hcache, -⟩ := getCoinRecord_cases env coinName s
  rw [hrun]
  refine ⟨rfl, hfaults, fun _ _ h => .inl h, fun k c hc => ?_⟩
  rcases hcache k c hc with hold | ⟨hname, hrow, -⟩
  · exact .inl hold
  · exact .inr ⟨hname, coinName, hrow⟩

lemma keeps_getBlockRecord : Keeps (Reads env) (getBlockRecord hash) :=
  keeps_query env _

lemma keeps_blockAtHeight : Keeps (Reads env) (blockAtHeight height) := by
  apply keeps_get_bind
  intro s
  apply keeps_lift_bind
  intro hash
  exact keeps_getFullBlock env hash

lemma keeps_reorgBlockAtHeight (chain : Dict ℕ FullBlock) (height : ℕ) :
    Keeps (Reads env) (reorgBlockAtHeight chain height) := by
  unfold reorgBlockAtHeight
  cases chain.get? height with
  | none => exact keeps_blockAtHeight env height
  | some refBlock => exact keeps_pure _

lemma keeps_reorgChainFrom (fork : ℤ) (fuel : ℕ) (curr : FullBlock) (chain : Dict ℕ FullBlock) :
    Keeps (Reads env) (reorgChainFrom fork fuel curr chain) := by
  induction fuel generalizing curr chain with
  | zero => exact keeps_throw _
  | succ fuel ih =>
    unfold reorgChainFrom
    split
    · apply keeps_bind (keeps_getFullBlock env _)
      intro prev
      apply keeps_lift_bind
      intro prev
      exact ih prev _
    · exact keeps_pure _

lemma keeps_reorgChainOf (additionalBlocks : Dict Bytes32 FullBlock) :
    Keeps (Reads env) (reorgChainOf block additionalBlocks) := by
  apply keeps_lift_bind
  rintro ⟨curr, chain⟩
  apply keeps_get_bind
  intro s
  apply keeps_lift_bind
  rintro (_ | peak)
  · exact keeps_pure _
  dsimp only
  split
  · apply keeps_bind (keeps_getBlockRecord env _)
    intro prevRecord
    apply keeps_bind (keeps_getFullBlock env _)
    intro prev
    apply keeps_lift_bind
    intro prev
    apply keeps_lift_bind
    intro prevRecord
    apply keeps_lift_bind
    intro fork
    exact keeps_reorgChainFrom env fork _ prev _
  · exact keeps_pure _

lemma keeps_getBlockGenerator (additionalBlocks : Dict Bytes32 FullBlock) :
    Keeps (Reads env) (getBlockGenerator block additionalBlocks) := by
  unfold getBlockGenerator
  cases block.transactionsGenerator with
  | none =>
    apply keeps_lift_bind
    intro _
    exact keeps_pure _
  | some program =>
    dsimp only
    split
    · exact keeps_pure _
    apply keeps_get_bind
    intro s
    apply keeps_lift_bind
    rintro (_ | _)
    · apply keeps_bind (keeps_reorgChainOf env block additionalBlocks)
      intro chain
      apply keeps_bind
      · apply keeps_mapM
        intro refHeight _
        exact keeps_bind (keeps_reorgBlockAtHeight env chain refHeight) fun _ => keeps_lift _
      · exact fun args => keeps_pure _
    · apply keeps_bind
      · apply keeps_mapM
        intro refHeight _
        exact keeps_bind (keeps_blockAtHeight env refHeight) fun _ => keeps_lift _
      · exact fun args => keeps_pure _

lemma keeps_getGenerator : Keeps (Reads env) (getGenerator block) :=
  keeps_getBlockGenerator env block .empty

lemma keeps_tryGetGenerator : Keeps (Reads env) (tryGetGenerator block) := by
  apply keeps_tryCatch
  · exact keeps_bind (keeps_getGenerator env block) fun generator => keeps_pure _
  · intro e
    cases e with
    | valueError => exact keeps_pure _
    | _ => exact keeps_throw _

lemma keeps_raising {α : Type} {m : NodeM α} (h : Keeps (Reads env) m) : Keeps (Reads env) (raising m) :=
  keeps_adapt h

lemma keeps_reorgBlocksFrom (fuel : ℕ) (curr : FullBlock) (blocks : Dict ℕ FullBlock) :
    Keeps (Reads env) (reorgBlocksFrom forkH fuel curr blocks) := by
  induction fuel generalizing curr blocks with
  | zero => exact keeps_throw _
  | succ fuel ih =>
    unfold reorgBlocksFrom
    split
    · apply keeps_bind (keeps_getFullBlock env _)
      intro prev
      apply keeps_lift_bind
      intro prev
      exact ih prev _
    · exact keeps_pure _

lemma keeps_removalsAndAdditionsOf (curr : FullBlock) :
    Keeps (Reads env) (removalsAndAdditionsOf env getGenerator curr) := by
  unfold removalsAndAdditionsOf
  cases curr.transactionsGenerator with
  | none => exact keeps_pure _
  | some program =>
    apply keeps_bind (keeps_getGenerator env curr)
    intro generator
    apply keeps_lift_bind
    intro generator
    apply keeps_lift_bind
    intro info
    exact keeps_lift _

lemma keeps_sinceForkFrom (blocks : Dict ℕ FullBlock) (fuel : ℕ) (curr : FullBlock) (since : SinceFork) :
    Keeps (Reads env) (sinceForkFrom env getGenerator forkH blocks fuel curr since) := by
  induction fuel generalizing curr since with
  | zero => exact keeps_throw _
  | succ fuel ih =>
    unfold sinceForkFrom
    split
    · apply keeps_bind (keeps_removalsAndAdditionsOf env curr)
      rintro ⟨removals, additions⟩
      apply keeps_lift_bind
      intro since
      split
      · exact keeps_pure _
      · cases blocks.get? (curr.height - 1) with
        | none => exact keeps_throw _
        | some prev => exact ih prev since
    · exact keeps_pure _

lemma keeps_sinceFork : Keeps (Reads env) (sinceFork env getGenerator block height forkH) := by
  unfold sinceFork
  split
  · exact keeps_pure _
  apply keeps_bind (keeps_getFullBlock env _)
  intro prev
  apply keeps_lift_bind
  intro prev
  apply keeps_bind (keeps_reorgBlocksFrom env forkH _ prev _)
  intro blocks
  split
  · apply keeps_lift_bind
    intro _
    exact keeps_sinceForkFrom env forkH blocks _ prev _
  · exact keeps_sinceForkFrom env forkH blocks _ prev _

lemma keeps_removalCoinRecord (additionsDic : Dict Bytes32 Coin) (timestamp height : ℕ) (forkH : ℤ) (since : SinceFork)
    (rem : Bytes32) : Keeps (Reads env) (removalCoinRecord env additionsDic timestamp height forkH since rem) := by
  unfold removalCoinRecord
  cases additionsDic.get? rem with
  | some remCoin => exact keeps_pure _
  | none =>
    apply keeps_bind (keeps_raising env (keeps_getCoinRecord env rem))
    intro unspent
    apply keeps_lift_bind
    intro record
    apply keeps_lift_bind
    intro _
    exact keeps_pure _

end SectorChain.Proofs
