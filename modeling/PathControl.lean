import PathControl.Address
import PathControl.Calculator
import PathControl.CommandLine
import PathControl.Controller
import PathControl.Controller.Run
import PathControl.Energy
import PathControl.Error
import PathControl.Event
import PathControl.Flow
import PathControl.Flow.Header
import PathControl.Flow.Match
import PathControl.FlowTable
import PathControl.Forecast
import PathControl.Json
import PathControl.Json.Reader
import PathControl.Json.Token
import PathControl.Main
import PathControl.Metric
import PathControl.MinQueue
import PathControl.Notice
import PathControl.Numeral
import PathControl.Rebalance
import PathControl.Rule
import PathControl.Settings
import PathControl.Settings.Document
import PathControl.ShortestPath
import PathControl.Simulation
import PathControl.Simulation.Options
import PathControl.Simulation.Ring
import PathControl.Telemetry
import PathControl.Time
import PathControl.Toml.Line
import PathControl.Toml.Token
import PathControl.Topology
import PathControl.Topology.Node
import PathControl.Weight
import PathControl.Weight.Counts
import PathControl.Weight.CpuUsage
import PathControl.Weight.FlexWeight
import PathControl.Weight.Reading
import PathControl.Proofs.Result
import PathControl.Proofs.Numeral
import PathControl.Proofs.Time
import PathControl.Proofs.Flow
import PathControl.Proofs.Address
import PathControl.Proofs.Flow.Header
import PathControl.Proofs.Flow.Match
import PathControl.Proofs.Flow.Order
import PathControl.Proofs.FlowTable
import PathControl.Proofs.Topology
import PathControl.Proofs.MinQueue
import PathControl.Proofs.MinQueue.Use
import PathControl.Proofs.Weight
import PathControl.Proofs.Weight.Counts
import PathControl.Proofs.Walk
import PathControl.Proofs.Weight.FlexWeight
import PathControl.Proofs.Weight.Contract
import PathControl.Proofs.Weight.Total
import PathControl.Proofs.ShortestPath.Loop
import PathControl.Proofs.ShortestPath.Route
import PathControl.Proofs.ShortestPath.Invariant
import PathControl.Proofs.ShortestPath.Least
import PathControl.Proofs.ShortestPath.Counts
import PathControl.Proofs.ShortestPath.FlexWeight
import PathControl.Proofs.SwitchPath
import PathControl.Proofs.Rule
import PathControl.Proofs.Rebalance
import PathControl.Proofs.Rebalance.Bounds
import PathControl.Proofs.Controller
import PathControl.Proofs.Controller.Reached
import PathControl.Proofs.Controller.Forwarding
import PathControl.Proofs.FlowTable.Check
import PathControl.Proofs.Topology.Port
import PathControl.Proofs.Topology.Addition
import PathControl.Proofs.Rule.Handshake
import PathControl.Proofs.Rebalance.Handover
import PathControl.Proofs.Controller.Isolation
import PathControl.Proofs.ShortestPath.Complete
import PathControl.Proofs.ShortestPath.NoPath
import PathControl.Proofs.ShortestPath.Energy
import PathControl.Proofs.ShortestPath.Genuine
import PathControl.Proofs.ShortestPath.Burden
import PathControl.Proofs.ShortestPath.Load
import PathControl.Proofs.Rebalance.Visits
import PathControl.Proofs.Rebalance.Burden
import PathControl.Proofs.Controller.Burden
import PathControl.Proofs.Controller.Lifetime
import PathControl.Proofs.Controller.Refusal
import PathControl.Proofs.ShortestPath.Room
import PathControl.Proofs.Rebalance.NoFailure
import PathControl.Proofs.Rebalance.Account
import PathControl.Proofs.Controller.NoFailure
import PathControl.Proofs.Event.Queue
import PathControl.Proofs.Event.Agenda
import PathControl.Proofs.Energy
import PathControl.Proofs.Energy.History
import PathControl.Proofs.Forecast
import PathControl.Proofs.Controller.Sample
import PathControl.Proofs.Controller.Margin
import PathControl.Proofs.Controller.Loop
import PathControl.Proofs.Controller.Ticks
import PathControl.Proofs.Controller.Window
import PathControl.Proofs.Controller.Periodic
import PathControl.Proofs.Controller.RunUntil
import PathControl.Proofs.Simulation
import PathControl.Proofs.Simulation.Termination
import PathControl.Proofs.Simulation.Ring
