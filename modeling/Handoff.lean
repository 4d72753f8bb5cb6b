import Handoff.Main
import Handoff.Spin
import Handoff.Proofs.Futex
import Handoff.Proofs.Text.Elapsed
import Handoff.Ring.Script
import Handoff.Lock.Guarded
import Handoff.Threads.Ring
import Handoff.Threads.Workers
import Handoff.Proofs.Ring.Staleness
import Handoff.Proofs.Ring.Conservation
import Handoff.Proofs.Ring.Delivery
import Handoff.Proofs.Ring.Discipline
import Handoff.Proofs.Lock.Agreement
import Handoff.Proofs.Lock.Calls
import Handoff.Proofs.Lock.Accounting
import Handoff.Proofs.Lock.History
import Handoff.Proofs.Lock.Fruitless
import Handoff.Proofs.Lock.Leftover
import Handoff.Proofs.Lock.Protection
import Handoff.Proofs.Threads.Spsc
import Handoff.Proofs.Threads.Snapshots
import Handoff.Proofs.Threads.Deadlines
import Handoff.Proofs.Bench.Joining
import Handoff.Proofs.CommandLine
import Handoff.Proofs.Spin
