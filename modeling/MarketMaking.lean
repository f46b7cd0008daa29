import MarketMaking.Backtest
import MarketMaking.Event.Log
import MarketMaking.Main
import MarketMaking.Proofs.Compaction
import MarketMaking.Proofs.Inventory
import MarketMaking.Proofs.PostOnly
import MarketMaking.Recorder.Csv
import MarketMaking.Recorder.JsonLines
import MarketMaking.Venue.Replay
import MarketMaking.Venue.Scripted
import MarketMaking.Proofs.Binary64.Finite
import MarketMaking.Proofs.Chronicle
import MarketMaking.Proofs.Stages
import MarketMaking.Proofs.WarmUp
import MarketMaking.Proofs.Market
import MarketMaking.Proofs.Schedule
import MarketMaking.Proofs.Commitment
import MarketMaking.Proofs.Totals
import MarketMaking.Proofs.Lag
import MarketMaking.Proofs.Capacity
import MarketMaking.Proofs.Failure
import MarketMaking.Proofs.Recording
import MarketMaking.Proofs.ArrivalTable
import MarketMaking.Proofs.Ledger
import MarketMaking.Proofs.Faultless
import MarketMaking.Proofs.Printing
import MarketMaking.Proofs.Course
import MarketMaking.Proofs.Binary64.Sign
import MarketMaking.Proofs.Binary64.Same
import MarketMaking.Proofs.Mirror
import MarketMaking.Proofs.Placement
import MarketMaking.Proofs.Doubling
import MarketMaking.Proofs.Frame
import MarketMaking.Proofs.Settling
import MarketMaking.Proofs.Listing
import MarketMaking.Proofs.Binary64.Quotient
import MarketMaking.Proofs.Binary64.Precision
import MarketMaking.Proofs.Binary64.Monotone
import MarketMaking.Proofs.Depth
import MarketMaking.Proofs.InventorySkew
import MarketMaking.Proofs.RoundTrip
import MarketMaking.Proofs.ArrivalCounts
import MarketMaking.Proofs.LeastSquares
import MarketMaking.Proofs.EqualAbscissae
import MarketMaking.Proofs.FitCriterion
import MarketMaking.Proofs.DecaySign
import MarketMaking.Proofs.Deviation
import MarketMaking.Proofs.Clock
import MarketMaking.Proofs.Layers
import MarketMaking.Proofs.FixedPoint
import MarketMaking.Proofs.Reopening
import MarketMaking.Proofs.StatsTable
