import MarketMaker.Base.Run
import MarketMaker.Trading.SlotLifecycle
import MarketMaker.Trading.Fencing
import MarketMaker.Trading.Attribution
import MarketMaker.Trading.CleanupBarrier
import MarketMaker.Trading.TokenRefresh
import MarketMaker.App.CircuitBreaker
import MarketMaker.App.PositionGate
import MarketMaker.App.TrueExposure
import MarketMaker.App.RejectionStreak
import MarketMaker.App.PauseSchedule
import MarketMaker.App.WarmUp
import MarketMaker.Binance.Sync
import MarketMaker.App.DepthGuard
import MarketMaker.App.TickFence
import MarketMaker.App.RetiredIds
import MarketMaker.App.ZeroOrdersAlarm
import MarketMaker.Trading.RetryBudget
import MarketMaker.Trading.ResponseRouting
import MarketMaker.Trading.Untradable
import MarketMaker.Trading.SteadyQuote
import MarketMaker.Trading.Rollback
import MarketMaker.App.IdentityConflict
import MarketMaker.App.RestEvidence
import MarketMaker.Strategy.QuoteGeometry
import MarketMaker.Strategy.Levels
import MarketMaker.Binance.Imbalance
import MarketMaker.Strategy.WindowStatistics
import MarketMaker.Binance.Published
import MarketMaker.Strategy.Signal
import MarketMaker.App.OrderText
import MarketMaker.Trading.WalletHistory
import MarketMaker.App.SymbolLink
import MarketMaker.Trading.Shutdown
import MarketMaker.App.PositionCells
import MarketMaker.App.MarketFeed
import MarketMaker.App.UnansweredOrder
import MarketMaker.Strategy.DepthMessage
import MarketMaker.App.CheckerHistory
import MarketMaker.App.StaleRisk
