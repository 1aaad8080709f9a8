import MCsim.Lib.Machine
import MCsim.Lib.Automaton
import MCsim.Packet
import MCsim.AddressMapping
import MCsim.RequestQueue
import MCsim.CommandQueue
import MCsim.CommandGenerator
import MCsim.Device
import MCsim.RefreshMachine
import MCsim.CommandScheduler
import MCsim.Schedulers.General
import MCsim.RequestScheduler
import MCsim.Schedulers.Medusa
import MCsim.MemoryController
import MCsim.Spec.RowBuffer
import MCsim.Laws.General
import MCsim.Laws.RequestScheduler
import MCsim.Laws.Controller
import MCsim.Laws.RowState
import MCsim.Dram.Node
import MCsim.Dram.DDR3
import MCsim.Dram.DDR4
import MCsim.Dram.Adapter
import MCsim.Laws.BankTiming
import MCsim.Setups
import MCsim.Spec.Lane
import MCsim.Lib.Erase
import MCsim.Laws.Books
import MCsim.Laws.Completion
import MCsim.Laws.Medusa
import MCsim.Laws.Refresh
import MCsim.Laws.RefreshRows
import MCsim.Lib.Scan
import MCsim.Schedulers.Calls
import MCsim.Schedulers.Fifo
import MCsim.Laws.Buffers
import MCsim.Laws.Latch
import MCsim.Laws.Fifo
import MCsim.Schedulers.ReOrder
import MCsim.Laws.ReOrder
import MCsim.Schedulers.RankReOrder
import MCsim.Laws.RankReOrder
import MCsim.Schedulers.Round
import MCsim.Laws.Round
import MCsim.Requests.Mcmc
import MCsim.Spec.Slots
import MCsim.Laws.Requestors
import MCsim.Laws.Mcmc
import MCsim.Requests.Calls
import MCsim.Requests.Batching
import MCsim.Laws.Batching
import MCsim.Requests.RoundRobin
import MCsim.Lib.Rotation
import MCsim.Laws.RoundRobin
import MCsim.Requestor
import MCsim.MultiChannel
import MCsim.Laws.Ledger
import MCsim.Laws.Admission
import MCsim.Laws.Sides
import MCsim.Laws.Removal
import MCsim.Lib.Radix
import MCsim.Laws.AddressMapping
import MCsim.Schedulers.Mag
import MCsim.Laws.Mag
import MCsim.Laws.Oldest
import MCsim.Laws.CasFirst
import MCsim.Lib.Lanes
import MCsim.Laws.Returned
import MCsim.Laws.QueueTurns
import MCsim.Requests.Bliss
import MCsim.Laws.Bliss
import MCsim.Requests.Parbs
import MCsim.Lib.Champion
import MCsim.Laws.Parbs
import MCsim.Laws.Marking
import MCsim.Lib.Countdown
import MCsim.TimerMaps
import MCsim.Laws.Timers
import MCsim.Lib.DelayLine
import MCsim.Generators
import MCsim.Traffic
import MCsim.Laws.Posting
import MCsim.Laws.Pipelines
import MCsim.Laws.RoundOpen
import MCsim.Laws.Beats
import MCsim.Lib.Recency
import MCsim.Laws.RoundChoice
import MCsim.Lib.Stepping
import MCsim.Laws.Drain
import MCsim.Laws.Fcfs
import MCsim.Laws.Ranges
import MCsim.Lib.Subscript
import MCsim.RowTable
import MCsim.Laws.RowTable
import MCsim.Lib.Places
import MCsim.Schedulers.Roc
import MCsim.Laws.Roc
import MCsim.Schedulers.PipeCas
import MCsim.Laws.PipeCas
import MCsim.Requests.Pmc
import MCsim.Laws.Pmc
import MCsim.Laws.Hysteresis
import MCsim.Requests.Direct
import MCsim.Laws.Direct
import MCsim.Lib.Pairing
import MCsim.Laws.Latency
import MCsim.Lib.Text
import MCsim.TraceFile
import MCsim.Laws.Replay
import MCsim.Laws.OpenClose
import MCsim.Laws.Statistics
import MCsim.Lib.While
import MCsim.ClockDomain
import MCsim.Laws.ClockDomain
import MCsim.Laws.QueueSelection
import MCsim.Laws.RefreshPop
import MCsim.ConfigFile
import MCsim.Laws.ConfigFile
import MCsim.Laws.RoundOrder
import MCsim.Laws.PipeCasCounters
import MCsim.Laws.Preemption
import MCsim.Laws.Turn
import MCsim.Laws.Progress
import MCsim.Laws.OnDevice
import MCsim.Laws.Simulation
import MCsim.Laws.Channels
import MCsim.Laws.Gate
import MCsim.Laws.Activations
import MCsim.Laws.Spacing
import MCsim.Laws.DataBus
import MCsim.Laws.RTMem
import MCsim.Laws.ClosePage
import MCsim.Laws.RoundRobinWait
import MCsim.Laws.Timetable
import MCsim.Laws.OnTime
import MCsim.Laws.Response
