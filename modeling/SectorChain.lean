import SectorChain.Proofs.StreamableCodec
import SectorChain.Proofs.ValidationPaths
import SectorChain.Proofs.WalletPeak
import SectorChain.Proofs.WalletAuthenticity
import SectorChain.Proofs.BlockInclusion
import SectorChain.Proofs.SingletonLine
import SectorChain.Proofs.UnknownConditions
import SectorChain.Proofs.WeightProofSampling
import SectorChain.Proofs.KeyDerivation
import SectorChain.Proofs.WalletTransactions
import SectorChain.Proofs.Compression
import SectorChain.Proofs.Addresses
import SectorChain.Proofs.KeyLookup
import SectorChain.Proofs.MerkleCheckers
import SectorChain.Proofs.JsonRoundTrip
import SectorChain.Proofs.Header.Deficits
import SectorChain.Proofs.ForkPoint
import SectorChain.Proofs.CoinCache
import SectorChain.Proofs.OfferedItems
import SectorChain.Proofs.PendingCache
import SectorChain.Proofs.BlockCache
import SectorChain.Proofs.ChainLoading
import SectorChain.Proofs.Header.SignagePoints
import SectorChain.Proofs.PoolHistory
import SectorChain.Proofs.TransactionPages
import SectorChain.Proofs.PrecalculatedHashes
import SectorChain.Proofs.SyncTargets
import SectorChain.Proofs.FutureMessages
import SectorChain.Proofs.RequestIds
