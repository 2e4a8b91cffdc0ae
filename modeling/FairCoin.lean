import FairCoin.Verified.ByteCodec
import FairCoin.Ports.Primitives
import FairCoin.Ports.Serialize
import FairCoin.Verified.SortedMap
import FairCoin.Ports.PocState
import FairCoin.Ports.AdminSignature
import FairCoin.Verified.FlagWord
import FairCoin.Ports.ChainData
import FairCoin.Ports.NextCreator
import FairCoin.Ports.ChainSignature
import FairCoin.Ports.SignatureMean
import FairCoin.Verified.SlotList
import FairCoin.Ports.Coins
import FairCoin.Ports.CoinsCache
import FairCoin.Verified.OkImplies
import FairCoin.Ports.Script
import FairCoin.Verified.Checks
import FairCoin.Verified.StateRun
import FairCoin.Ports.BlockCheck
import FairCoin.Ports.Chainstate
import FairCoin.Ports.BlockIndex
import FairCoin.Ports.Activation
import FairCoin.Ports.PocChainState
import FairCoin.Ports.ChainWork
import FairCoin.Ports.PocThread
import FairCoin.Ports.SignatureHolder
import FairCoin.Ports.NoncePool
import FairCoin.Ports.TxMemPool
import FairCoin.Ports.Interpreter
import FairCoin.Ports.ScriptFlags
import FairCoin.Ports.CompactSize
import FairCoin.Ports.Compressor
import FairCoin.Ports.PocSigning
import FairCoin.Ports.ScriptNum
import FairCoin.Ports.SigEncoding
import FairCoin.Ports.Merkle
import FairCoin.Ports.Bloom
import FairCoin.Ports.Base58
import FairCoin.Ports.CoinSelection
import FairCoin.Ports.CreatorLoop
import FairCoin.Ports.AddrMan
import FairCoin.Ports.AddrManRun
import FairCoin.Ports.AddrManQuery
import FairCoin.Ports.AddrManReach
import FairCoin.Ports.Chain
