import SloppyGroup.Text.Quoted
import SloppyGroup.Decimal.Shortest
import SloppyGroup.Decimal.Fixed
import SloppyGroup.Decimal.Reading
import SloppyGroup.Random.ChaCha
import SloppyGroup.Hash.Sha256
import SloppyGroup.Identifier
import SloppyGroup.Identity
import SloppyGroup.Proximity.Survey
import SloppyGroup.Overlay.Construction
import SloppyGroup.Simulation
import SloppyGroup.Export.Gml
import SloppyGroup.Statistics.Degrees
import SloppyGroup.Statistics.Components
import SloppyGroup.Json.Tree
import SloppyGroup.Loading.Input
import SloppyGroup.Loading.SettingsRecord
import SloppyGroup.Plan
import SloppyGroup.Toml.Document
import SloppyGroup.Command.Program
import SloppyGroup.Host.FileTree
import SloppyGroup.Main
import SloppyGroup.Proofs.Overlay.Nodes
import SloppyGroup.Proofs.Gossip.Flooding
import SloppyGroup.Proofs.Gossip.Settlement
import SloppyGroup.Proofs.Proximity.Filling
import SloppyGroup.Proofs.Proximity.Pruning
import SloppyGroup.Proofs.Proximity.EarlyStop
import SloppyGroup.Proofs.Overlay.Backlinks
import SloppyGroup.Proofs.Overlay.Outreach
import SloppyGroup.Proofs.Gossip.Purity
import SloppyGroup.Proofs.Overlay.Construction
import SloppyGroup.Proofs.Simulation
import SloppyGroup.Proofs.Undirected.Exactness
import SloppyGroup.Proofs.Overlay.Displacement
import SloppyGroup.Proofs.Gossip.Noninterference
import SloppyGroup.Proofs.Overlay.Hubs
import SloppyGroup.Proofs.Convergence
import SloppyGroup.Proofs.Overlay.Histories
import SloppyGroup.Proofs.Overlay.Provenance
import SloppyGroup.Proofs.Isolation
import SloppyGroup.Proofs.Overlay.Abundance
import SloppyGroup.Proofs.Overlay.Schedules
import SloppyGroup.Proofs.Observation
import SloppyGroup.Proofs.Overlay.Refusals
import SloppyGroup.Proofs.Proximity.Intake
import SloppyGroup.Proofs.Proximity.Nearest
import SloppyGroup.Proofs.Undirected.ShortestPaths
import SloppyGroup.Proofs.Proximity.Vicinities
import SloppyGroup.Proofs.Overlay.Coverage
import SloppyGroup.Proofs.Gossip.Resumption
import SloppyGroup.Proofs.Gossip.Verdicts
import SloppyGroup.Proofs.Overlay.Admissions
import SloppyGroup.Proofs.Overlay.Walks
import SloppyGroup.Proofs.Loading.Acceptance
import SloppyGroup.Proofs.Export.Legibility
import SloppyGroup.Proofs.Statistics.Components
import SloppyGroup.Proofs.Draws
import SloppyGroup.Proofs.Overlay.Rivals
import SloppyGroup.Proofs.Overlay.Wiring
import SloppyGroup.Proofs.Overlay.LongLinks
import SloppyGroup.Proofs.Undirected.Adjacency
import SloppyGroup.Proofs.Export.Degrees
import SloppyGroup.Proofs.Gossip.Synchrony
import SloppyGroup.Proofs.Groups
import SloppyGroup.Proofs.Seeds
