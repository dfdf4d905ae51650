import FullText.Clause.Parser
import FullText.Search.Ranking

/-!
# Searching an index

An index that can be searched is an inverted index together with the pipeline that it was built
with. The terms of a clause go through the same pipeline as the texts of documents. A term that is
taken apart becomes one clause for each token that remains, and none if no token does; a pattern is
folded and stays one clause.

## Main definitions

* `Index` : an inverted index with its pipeline.
* `Index.normalize` : the clauses that a clause stands for.
* `Index.query` : the results of a list of clauses.
* `Index.search` : the results of a query.
-/

namespace FullText

/-- An index that can be searched. -/
structure Index where
  /-- The inverted index. -/
  inverted : InvertedIndex
  /-- The pipeline for documents and queries. -/
  pipeline : Pipeline

namespace Index

/-- The configuration. -/
def config (index : Index) : Config := index.inverted.config

/-- The number of documents. -/
def documentCount (index : Index) : UInt64 := index.inverted.documentCount

/-- The numbers of the index. -/
def stats (index : Index) : IndexStats := index.inverted.stats

/-- The clauses that a clause stands for in this index. -/
def normalize (index : Index) (c : Clause) : List Clause :=
  if c.isPattern then [c.withTerm (index.pipeline.foldPattern c.term)]
  else (index.pipeline.analyze c.term).map fun t => c.withTerm t.text

/-- A clause with its matches. -/
def expandOne (index : Index) (c : Clause) : Except Error Expansion :=
  (index.inverted.expand c).map fun found => ⟨c, found⟩

/-- The expansions of the clauses that a clause stands for. The clause must fit the
configuration. -/
def expandClause (index : Index) (c : Clause) : Except Error (List Expansion) := do
  c.validate index.config
  (index.normalize c).mapM index.expandOne

/-- The expansions of a list of clauses, up to the first that is refused. -/
def expandAll (index : Index) : List Clause → Except Error (List Expansion)
  | [] => .ok []
  | c :: rest => do
    let es ← index.expandClause c
    let others ← index.expandAll rest
    return es ++ others

/-- The results of a list of clauses. -/
def query (index : Index) (cs : List Clause) : Except Error (List SearchResult) :=
  (index.expandAll cs).map index.inverted.rank

/-- Reads a query. -/
def parse (index : Index) (query : String) : Except Error (List Clause) :=
  Clause.parseQuery index.config query

/-- The results of a query. All of it is read before anything is looked up. -/
def search (index : Index) (query : String) : Except Error (List SearchResult) := do
  let clauses ← index.parse query
  index.query clauses

end Index

end FullText
