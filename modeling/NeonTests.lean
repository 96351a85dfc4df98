import NeonTests.Lib.Endian
import NeonTests.Lib.Python
import NeonTests.Rlp.Definitions
import NeonTests.Rlp.RoundTrip
import NeonTests.Rlp.Canonical
import NeonTests.Rlp.Framing
import NeonTests.Rlp.YellowPaper
import NeonTests.Transaction.Definitions
import NeonTests.Transaction.Fields
import NeonTests.Transaction.Signing
import NeonTests.Transaction.Reencode
import NeonTests.Transaction.Strict
import NeonTests.Chainlink.Definitions
import NeonTests.Chainlink.Locate
import NeonTests.Chainlink.Account
import NeonTests.Chainlink.Records
import NeonTests.Chainlink.Bounds
import NeonTests.Chainlink.Latest
import NeonTests.Lib.ByteSwap
import NeonTests.Pyth.BytesLib
import NeonTests.Pyth.Definitions
import NeonTests.Pyth.Parse
import NeonTests.Holder.Definitions
import NeonTests.Holder.Upload
import NeonTests.Solana.SerializeInstruction
import NeonTests.KeyPool.Definitions
import NeonTests.KeyPool.Conservation
import NeonTests.Statistics.Definitions
import NeonTests.Statistics.Complete
import NeonTests.Lib.Batch
import NeonTests.Lib.Calls
import NeonTests.Erc3475.Definitions
import NeonTests.Erc3475.Nonces
import NeonTests.Erc3475.Supply
import NeonTests.Erc3475.Authorisation
import NeonTests.Lib.IndexedList
import NeonTests.Diamond.Definitions
import NeonTests.Diamond.Selectors
import NeonTests.Lib.Ledger
import NeonTests.WrappedToken.Definitions
import NeonTests.WrappedToken.Solvency
import NeonTests.WrappedToken.Books
import NeonTests.WrappedToken.Authorisation
import NeonTests.CostReport.Definitions
import NeonTests.CostReport.Prepare
import NeonTests.ResultsDb.Definitions
import NeonTests.ResultsDb.Replace
import NeonTests.Lib.Runs
import NeonTests.ResultsDb.History
import NeonTests.ResultsDb.Queries
import NeonTests.ResultsDb.Tags
import NeonTests.Lib.Join
import NeonTests.Lib.Json
import NeonTests.ErrorLog.Definitions
import NeonTests.ErrorLog.LockOrder
import NeonTests.ErrorLog.Contents
import NeonTests.Session.Definitions
import NeonTests.Session.Survival
import NeonTests.Lib.Base58
import NeonTests.Lib.Reader
import NeonTests.ResultsDb.Historical
import NeonTests.ResultsDb.Compare
import NeonTests.ResultsDb.Plots
import NeonTests.Lib.Decimal
import NeonTests.Lib.StableSort
import NeonTests.CostReport.Markdown
import NeonTests.EvmLoader.Definitions
import NeonTests.EvmLoader.StepProtocol
import NeonTests.Holder.Create
import NeonTests.Lib.Brackets
import NeonTests.Lib.AbiType
import NeonTests.Signatures.Definitions
import NeonTests.Signatures.Selectors
import NeonTests.Signatures.CallData
import NeonTests.LoadTest.Definitions
import NeonTests.LoadTest.Mirror
import NeonTests.ErrorLog.Summaries
import NeonTests.ErrorLog.Readers
import NeonTests.Clickfile.CatchTraceback
import NeonTests.Clickfile.Run
import NeonTests.Slack.Notification
import NeonTests.Lib.Pathlib
import NeonTests.Cloud.Definitions
import NeonTests.Cloud.RoundTrip
import NeonTests.Cloud.AllureHistory
import NeonTests.Web3Client.Definitions
import NeonTests.Web3Client.MakeRawTx
import NeonTests.Prices.SolPrice
import NeonTests.LostTransactions.Coverage
import NeonTests.GithubApi.PrComments
import NeonTests.RpcChecks.LogField
import NeonTests.Infrastructure.AccountCount
import NeonTests.Rlp.ContractAddress
import NeonTests.Lib.EvmMemory
import NeonTests.MetaProxy.Definitions
import NeonTests.MetaProxy.InitCode
import NeonTests.Erc3475.TotalSupply
import NeonTests.RpcChecks.SpecifiedType
import NeonTests.Swaps.Definitions
import NeonTests.Swaps.Restore
import NeonTests.Operators.KeyFiles
import NeonTests.Diamond.Loupe
import NeonTests.Lib.Evm
import NeonTests.MetaProxy.Runtime
import NeonTests.MetaProxy.Metadata
import NeonTests.MetaProxy.Abi
import NeonTests.MetaProxy.Contract
import NeonTests.MetaProxy.Instance
import NeonTests.Diamond.Dispatch
import NeonTests.Diamond.Ownership
import NeonTests.Lib.WordCopy
import NeonTests.Pyth.BytesLibMemory
import NeonTests.Lib.Format
import NeonTests.Solana.ProgramAddress
import NeonTests.EvmLoader.Layouts
import NeonTests.EvmLoader.Accounts
import NeonTests.EvmLoader.Instructions
import NeonTests.Holder.ReadBack
import NeonTests.Metaplex.Definitions
import NeonTests.Metaplex.RoundTrip
import NeonTests.Lib.Log
import NeonTests.Erc1820.Definitions
import NeonTests.Erc1820.Introspection
import NeonTests.Erc1820.Registry
import NeonTests.Erc1820.Greeting
