import Mathlib.Init

/-!
# Error codes

The members of `errors.Err` that the modelled code returns.
-/

namespace SectorChain

inductive Err where
  | UNKNOWN
  | DUPLICATE_OUTPUT
  | DOUBLE_SPEND
  | UNKNOWN_UNSPENT
  | BAD_AGGREGATE_SIGNATURE
  | WRONG_PUZZLE_HASH
  | INVALID_CONDITION
  | ASSERT_MY_COIN_ID_FAILED
  | ASSERT_ANNOUNCE_CONSUMED_FAILED
  | ASSERT_HEIGHT_RELATIVE_FAILED
  | ASSERT_HEIGHT_ABSOLUTE_FAILED
  | ASSERT_SECONDS_ABSOLUTE_FAILED
  | COIN_AMOUNT_EXCEEDS_MAXIMUM
  | MINTING_COIN
  | BLOCK_COST_EXCEEDS_MAX
  | BAD_ADDITION_ROOT
  | BAD_REMOVAL_ROOT
  | TIMESTAMP_TOO_FAR_IN_PAST
  | TIMESTAMP_TOO_FAR_IN_FUTURE
  | INVALID_TRANSACTIONS_FILTER_HASH
  | INVALID_HEIGHT
  | INVALID_BLOCK_FEE_AMOUNT
  | INVALID_WEIGHT
  | INVALID_TRANSACTIONS_GENERATOR_HASH
  | RESERVE_FEE_CONDITION_FAILED
  | NOT_BLOCK_BUT_HAS_DATA
  | IS_TRANSACTION_BLOCK_BUT_NO_DATA
  | INVALID_PREV_BLOCK_HASH
  | INVALID_TRANSACTIONS_INFO_HASH
  | INVALID_FOLIAGE_BLOCK_HASH
  | INVALID_REWARD_COINS
  | INVALID_BLOCK_COST
  | INVALID_IS_TRANSACTION_BLOCK
  | INVALID_FOLIAGE_BLOCK_PRESENCE
  | ASSERT_SECONDS_RELATIVE_FAILED
  | INITIAL_TRANSACTION_FREEZE
  | TOO_MANY_GENERATOR_REFS
  | ASSERT_MY_PARENT_ID_FAILED
  | ASSERT_MY_PUZZLEHASH_FAILED
  | ASSERT_MY_AMOUNT_FAILED
  | GENERATOR_RUNTIME_ERROR
  | INVALID_TRANSACTIONS_GENERATOR_REFS_ROOT
  | FUTURE_GENERATOR_REFS
  | GENERATOR_REF_HAS_NO_GENERATOR
  | DOUBLE_SPEND_IN_FORK
  | COIN_AMOUNT_NEGATIVE
  | MEMPOOL_CONFLICT
  | MEMPOOL_NOT_INITIALIZED
  | INVALID_FEE_LOW_FEE
  | INVALID_FEE_TOO_CLOSE_TO_ZERO
  | INVALID_PREV_CHALLENGE_SLOT_HASH
  | SHOULD_NOT_HAVE_ICC
  | INVALID_ICC_EOS_VDF
  | INVALID_ICC_HASH_CC
  | INVALID_ICC_HASH_RC
  | INVALID_SUB_EPOCH_SUMMARY_HASH
  | INVALID_SUB_EPOCH_SUMMARY
  | INVALID_NEW_SUB_SLOT_ITERS
  | INVALID_NEW_DIFFICULTY
  | INVALID_CHALLENGE_SLOT_HASH_RC
  | INVALID_RC_EOS_VDF
  | INVALID_CC_EOS_VDF
  | INVALID_DEFICIT
  | TOO_MANY_BLOCKS
  | INVALID_CC_CHALLENGE
  | INVALID_POSPACE
  | INVALID_SP_INDEX
  | INVALID_REQUIRED_ITERS
  | NO_OVERFLOWS_IN_FIRST_SUB_SLOT_NEW_EPOCH
  | INVALID_TOTAL_ITERS
  | INVALID_RC_SP_VDF
  | INVALID_RC_SIGNATURE
  | INVALID_CC_SP_VDF
  | INVALID_CC_SIGNATURE
  | INVALID_PLOT_SIGNATURE
  | INVALID_URSB_HASH
  | OLD_POOL_TARGET
  | INVALID_PREFARM
  | INVALID_POOL_SIGNATURE
  | INVALID_POOL_TARGET
  | INVALID_CC_IP_VDF
  | INVALID_RC_IP_VDF
  | INVALID_ICC_VDF
  | INVALID_REWARD_BLOCK_HASH
deriving DecidableEq, Repr

end SectorChain
