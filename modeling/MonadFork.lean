import MonadFork.Data
import MonadFork.Recovery
import MonadFork.ProcessBlock
import MonadFork.RunLoop
import MonadFork.Watermark
import MonadFork.Progress
import MonadFork.Throughput
import MonadFork.Window
import MonadFork.Effects
import MonadFork.HashChain
import MonadFork.Safety
import MonadFork.EventRing.Config
import MonadFork.EventRing.Ownership
import MonadFork.EventRing.WaitFree
import MonadFork.EventRing.Recorder
