import CodeAtlas.Analysis.Workspace
import CodeAtlas.Proofs.Analysis.Report
import CodeAtlas.Proofs.Analysis.Session
import CodeAtlas.Proofs.Cache.Faithful
import CodeAtlas.Proofs.Cache.History
import CodeAtlas.Proofs.Insight.Cycle
import CodeAtlas.Proofs.Parse.Account
import CodeAtlas.Proofs.Sketch.Hint
import CodeAtlas.Proofs.Cache.Noted
import CodeAtlas.Proofs.Cache.Tally
import CodeAtlas.Proofs.Analysis.Order
import CodeAtlas.Binary
import CodeAtlas.Proofs.Cache.Contract
import CodeAtlas.Proofs.Analysis.Repeat
import CodeAtlas.Proofs.Config.Layers
import CodeAtlas.Proofs.Source.Discovery
import CodeAtlas.Proofs.Repair.Quotes
import CodeAtlas.Proofs.Repair.Escapes
import CodeAtlas.Proofs.Repair.Brackets
import CodeAtlas.Proofs.Repair.Encoding
import CodeAtlas.Proofs.Parse.Fault
import CodeAtlas.Proofs.Repair.Reduction
import CodeAtlas.Proofs.Repair.Changes
import CodeAtlas.Proofs.Graph.Endpoint
import CodeAtlas.Proofs.Graph.Drawing
import CodeAtlas.Proofs.Graph.Contact
import CodeAtlas.Proofs.Graph.Import
import CodeAtlas.Proofs.Graph.Direction
import CodeAtlas.Proofs.Graph.Cluster
import CodeAtlas.Proofs.Insight.Services
import CodeAtlas.Proofs.Graph.Resolver
import CodeAtlas.Proofs.Cache.Capacity
import CodeAtlas.Proofs.Cache.Root
import CodeAtlas.Proofs.Parse.Empty
import CodeAtlas.Proofs.Tree.Export
import CodeAtlas.Proofs.Tree.Receiver
import CodeAtlas.Proofs.Tree.Home
import CodeAtlas.Proofs.Tree.UseTree
import CodeAtlas.Proofs.Tree.ImportDeclaration
import CodeAtlas.Proofs.Duration
import CodeAtlas.Proofs.Regex.Match
import CodeAtlas.Proofs.Regex.Greedy
import CodeAtlas.Proofs.Sketch.Extract
import CodeAtlas.Proofs.Sketch.UseLine
import CodeAtlas.Proofs.Repair.Recovery
import CodeAtlas.Proofs.Repair.Parts
import CodeAtlas.Proofs.Repair.Semicolons
import CodeAtlas.Proofs.Config.Document
import CodeAtlas.Proofs.Interface.Locality
import CodeAtlas.Proofs.Source.File
import CodeAtlas.Proofs.Text.Offset
import CodeAtlas.Proofs.Graph.Anchor
