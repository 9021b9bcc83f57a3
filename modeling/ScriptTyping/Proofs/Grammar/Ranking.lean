import ScriptTyping.Proofs.Grammar.Spelling
import ScriptTyping.Proofs.Peg.Total
import ScriptTyping.Reading.Parse

/-!
# The language is read to an answer

Before a match of a rule reads its first character, it calls only rules that stand further down in
the order from programs to tokens. So every text is matched or rejected (`exists_reads`), within the
depth of evaluation that scripts are given (`parse_of_reads`).
-/

namespace ScriptTyping.Grammar
open Peg Peg.Expr

/-- How far a rule is from the tokens, by the rules that it may call before a character is read. -/
def rank : Rule → Nat
  | .program | .forClassicHead => 18
  | .forInit | .forTest | .forUpdate | .expressionStatement => 17
  | .expression | .arrayItem => 16
  | .assignmentExpression => 15
  | .conditionalExpression => 14
  | .binaryExpression .logicalOr => 13
  | .binaryExpression .logicalAnd => 12
  | .binaryExpression .bitwiseOr => 11
  | .binaryExpression .bitwiseXor => 10
  | .binaryExpression .bitwiseAnd => 9
  | .binaryExpression .equality => 8
  | .binaryExpression .relational => 7
  | .binaryExpression .shift => 6
  | .binaryExpression .additive => 5
  | .binaryExpression .multiplicative => 4
  | .classMember | .forEachHead | .patternProperty | .patternItem | .parameterList | .arrowFunction
  | .unaryExpression | .property => 3
  | .variableDeclarator | .classField | .importClause | .labeledStatement | .bindingElement
  | .arrowParameters | .postfixExpression | .newTarget | .methodProperty | .shorthandProperty => 2
  | .identifier | .templateHolePart | .variableDeclaration | .forDeclaration | .functionDeclaration
  | .classDeclaration | .classHeritage | .importDeclaration | .importSpecifier | .exportDeclaration
  | .exportDefault | .exportSpecifier | .returnStatement | .ifStatement | .whileStatement
  | .doWhileStatement | .forStatement | .tryStatement | .catchClause | .finallyClause
  | .switchStatement | .switchCase | .throwStatement | .postfixOperation | .newExpression
  | .thisExpression | .superExpression | .importCall | .metaProperty | .functionExpression
  | .classExpression | .propertyKey => 1
  | _ => 0

lemma rank_lt (r : Rule) : rank r < 19 := by
  have each : ∀ r ∈ Rule.all, rank r < 19 := by decide +kernel
  exact each r r.mem_all

lemma guarded_body (r : Rule) : Guarded isConsuming rank 19 (rank r) (body r) = true := by
  have each : ∀ r ∈ Rule.all, Guarded isConsuming rank 19 (rank r) (body r) = true := by decide +kernel
  exact each r r.mem_all

lemma height_body_le (r : Rule) : (body r).height 14 ≤ 40 := by
  have each : ∀ r ∈ Rule.all, (body r).height 14 ≤ 40 := by decide +kernel
  exact each r r.mem_all

/-- The order of the rules from programs to tokens. -/
def ranking : Ranking language where
  consumes := isConsuming
  rank := rank
  top := 19
  height := 40
  consumes_body := consumes_body
  rank_lt := rank_lt
  guarded := guarded_body
  height_le := height_body_le
  blank := by decide

end ScriptTyping.Grammar

namespace ScriptTyping.Script
open Peg

/-- The depth that a text is given is enough. -/
lemma depth_le_depthFor (text : List Char) :
    Grammar.ranking.depth text.length ≤ depthFor text := by
  have width : Grammar.ranking.width = 761 := rfl
  have top : Grammar.ranking.top * Grammar.ranking.height = 760 := rfl
  rw [Ranking.depth, Ranking.budget, width, top, depthFor]
  omega

/-- The match of a script is what the grammar reads at its start. -/
theorem match?_eq_ok {s : Script} {t : Peg.Tree Rule} :
    s.match? = .ok t ↔
      ∃ q, Reads language .outset (.once (.call .program)) ⟨0, s.content.toList⟩ (some q) ∧
        q.trees = [t] := by
  obtain ⟨o, reads⟩ := Grammar.ranking.exists_reads (m := .outset) (e := .call .program)
    (c := ⟨0, s.content.toList⟩) rfl
  unfold match?
  dsimp only
  cases o with
  | some q =>
    obtain ⟨u, trees⟩ : ∃ u, q.trees = [u] := by
      cases reads with
      | silent silent => cases silent
      | call _ _ => exact ⟨_, rfl⟩
    rw [Grammar.ranking.parse_of_reads (depth_le_depthFor _) reads, trees]
    constructor
    · intro h
      cases h
      exact ⟨q, reads, trees⟩
    · rintro ⟨q', reads', trees'⟩
      cases reads.unique reads'
      rw [trees] at trees'
      cases trees'
      rfl
  | none =>
    obtain ⟨attempts, rejected⟩ := Grammar.ranking.parse_of_fails (depth_le_depthFor _) reads
    rw [rejected]
    constructor
    · nofun
    · rintro ⟨q', reads', -⟩
      cases reads.unique reads'

end ScriptTyping.Script
