import Kide.Artifact.Adapter
import Kide.Artifact.Layout

/-!
# Queries over one artifact

Queries that read a cached blob by its sections (`artifact_query.rs`). `directImplementations` follows the
hierarchy postings to detail blocks; a blob without postings is decoded as a whole instead.
-/

namespace Kide

open ArtifactProto ArtifactLayout

inductive ArtifactQueryError where
  | layout (error : ArtifactBlobLayoutError)
  | graph (error : ArtifactProtoError)
deriving DecidableEq, Repr

namespace ArtifactQuery

variable (reader : BlobReader)

def ofLayout {α : Type} : Except ArtifactBlobLayoutError α → Except ArtifactQueryError α
  | .ok value => .ok value
  | .error error => .error (.layout error)

def ofGraph {α : Type} : Except ArtifactProtoError α → Except ArtifactQueryError α
  | .ok value => .ok value
  | .error error => .error (.graph error)

/-- The ordinals of one detail block, read from it. -/
def readBlock (sections : ArtifactBlobSections) (blob : ArtifactBlob) (ordinals : List Nat) :
    Except ArtifactQueryError (List SymbolRecord) :=
  match ordinals with
  | [] => .ok []
  | first :: _ => do
    let block ← ofLayout (sections.symbolDetailBlock reader blob first)
    ordinals.mapM fun ordinal => ofGraph (ArtifactAdapter.decodeSymbolDetail block ordinal)

/-- The ordinals by the start of their block, in the order of the starts. -/
def groupByBlock (starts : List (Nat × Nat)) : List (List Nat) :=
  (Collects.sortedKeys Prod.fst (· ≤ ·) starts).map fun start => (starts.filter (·.1 = start)).map Prod.snd

/-- The implementations the postings name, as far as the artifact declares them. -/
def postedImplementations (sections : ArtifactBlobSections) (blob : ArtifactBlob) (hierarchy : ArtifactHierarchyPostings)
    (supertype : SymbolId) : Except ArtifactQueryError (List SymbolRecord) :=
  let subtypeIds := (hierarchy.entries.filter (·.supertypeSymbolId = supertype.asStr)).map (·.subtypeSymbolId)
  if subtypeIds = [] then .ok []
  else do
    let dictionary ← ofLayout (sections.symbolDictionary reader blob)
    let ordinals := dictionary.entries.zipIdx.filterMap fun entry =>
      if entry.1.id ∈ subtypeIds then some (asU32 entry.2) else none
    let starts ← ordinals.mapM fun ordinal => do
      let start ← ofLayout (sections.symbolDetailBlockStart ordinal)
      pure (start, ordinal)
    let symbols ← (groupByBlock starts).mapM (readBlock reader sections blob)
    pure symbols.flatten

/-- The fallback: the whole graph is decoded. -/
def graphImplementations (blob : ArtifactBlob) (supertype : SymbolId) : Except ArtifactQueryError (List SymbolRecord) := do
  let payload ← ofLayout (blob.readRange 0 blob.payload.length)
  let layout ← ofLayout (ArtifactBlobLayout.validate reader payload)
  let graph ← ofLayout (layout.graphFacts reader)
  let snapshots ← ofGraph (ArtifactAdapter.decodeGraphArtifact graph)
  let symbols := snapshots.flatMap FileAnalysisSnapshot.symbols
  pure (((snapshots.flatMap FileAnalysisSnapshot.hierarchy).filter (·.supertype = supertype)).filterMap fun edge =>
    Collects.lastOf SymbolRecord.id symbols edge.subtype)

/-- `direct_implementations` of a blob the cache has. -/
def directImplementations (blob : ArtifactBlob) (supertype : SymbolId) : Except ArtifactQueryError (List SymbolRecord) := do
  let sections ← ofLayout (ArtifactBlobSections.openBlob reader blob)
  match sections.hierarchyPostings reader blob with
  | .ok hierarchy => postedImplementations reader sections blob hierarchy supertype
  | .error (.missingSection .hierarchyPostings) => graphImplementations reader blob supertype
  | .error error => .error (.layout error)

end ArtifactQuery

end Kide
