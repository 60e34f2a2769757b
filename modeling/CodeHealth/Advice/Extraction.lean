import CodeHealth.Advice.Prose

/-!
Reading of replies. A model answers in free text. Its payload is sought in a fixed order of places,
and the first place that holds one counts; if none does, the reply is read as prose, so that every
reply says something.
-/

namespace CodeHealth.Advice

/-- What a model was asked for. -/
inductive Question where
  | report
  | snippet
deriving DecidableEq, Repr

/-- Where the payload of a reply was found. -/
inductive Strategy where
  | wholeResponse
  | fencedBlock
  | outerBraces
  | balancedFragment
  | textHeuristics
deriving DecidableEq, Repr, Inhabited

def Strategy.name : Strategy → String
  | .wholeResponse => "WholeResponse"
  | .fencedBlock => "FencedBlock"
  | .outerBraces => "OuterBraces"
  | .balancedFragment => "BalancedFragment"
  | .textHeuristics => "TextHeuristics"

/-- What a reply says, and where that was found. -/
structure Extraction where
  payload : Payload
  strategy : Strategy
deriving DecidableEq, Repr, Inhabited

/-- The texts of a reply that may be its payload, in the order in which they are tried. -/
def candidates (reply : List Char) : List (Strategy × List Char) :=
  (.wholeResponse, Text.trim reply) ::
  ((fencedBlock? reply).map fun t => (Strategy.fencedBlock, Text.trim t)).toList ++
  ((outerBlock? reply).map fun t => (Strategy.outerBraces, t)).toList ++
  (flatBlocks reply).map fun t => (Strategy.balancedFragment, t)

def prosePayload (question : Question) (reply : List Char) : Payload where
  summary := some (String.ofList (proseSummary reply))
  insights := match question with
    | .report => []
    | .snippet => (proseInsights reply).map String.ofList
  suggestions := (proseSuggestions reply).map String.ofList

def extract (question : Question) (reply : String) : Extraction :=
  let text := reply.toList
  match (candidates text).findSome? fun (s, t) => (Payload.ofText? t).map (Extraction.mk · s) with
  | some e => e
  | none => ⟨prosePayload question text, .textHeuristics⟩

theorem extract_eq (question : Question) (reply : String) : extract question reply =
    ((candidates reply.toList).findSome? fun c =>
      (Payload.ofText? c.2).map (Extraction.mk · c.1)).getD
        ⟨prosePayload question reply.toList, .textHeuristics⟩ := by
  rw [extract]
  cases (candidates reply.toList).findSome? fun c =>
    (Payload.ofText? c.2).map (Extraction.mk · c.1) <;> rfl

end CodeHealth.Advice
