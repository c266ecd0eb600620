import CodeAtlas.Main
import CodeAtlas.Proofs.Analysis.Candidate
import CodeAtlas.Proofs.Analysis.Tag
import CodeAtlas.Proofs.Chunker.Optimal
import CodeAtlas.Proofs.Chunker.Spans
import CodeAtlas.Proofs.Command.OtherModel
import CodeAtlas.Proofs.Command.Stale
import CodeAtlas.Proofs.Graph.EdgeIds
import CodeAtlas.Proofs.Graph.Linked
import CodeAtlas.Proofs.Graph.Order
import CodeAtlas.Proofs.Graph.WellFormed
import CodeAtlas.Proofs.Language.Specifier
import CodeAtlas.Proofs.Project.History
import CodeAtlas.Proofs.Retrieval.Markdown
import CodeAtlas.Proofs.Retrieval.Order
import CodeAtlas.Proofs.Retrieval.Semantic
import CodeAtlas.Proofs.Retrieval.Segments
import CodeAtlas.Proofs.Project.Config
import CodeAtlas.Proofs.Vector.Pool
import CodeAtlas.Proofs.Vector.Shared
