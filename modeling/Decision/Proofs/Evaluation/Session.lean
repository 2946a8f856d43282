import Decision.Evaluation.Engine
import Decision.Proofs.Expression.Memory

/-!
# One Memory for Everything

Nobody can tell from the answers of a memory what it was used for before.

A memory outlives the evaluation it was made for. It answers single cells and
serves whole evaluations, of any tables and with any converters, and it is the
same memory all the time. Every answer is nevertheless the one that a memory of
nothing gives, and that includes the answers that an evaluation gets on its way
and never shows.

What holds the argument together is `Remembers`: the memory holds the readings
of the cells that were asked for and of no others. Each single question keeps
it, whether it is answered or refused and whatever it has in common with the
questions before. An evaluation is a tree of such questions, and it takes the
branches that it would take with no memory, because the replies are the same.

## Main definitions

* `Exchange`: A question with the reply it had.
* `Request`: A single cell or an evaluation.
* `Cache.serve`, `Cache.serveAll`: The answers to requests.
* `Cache.exchanges`, `Cache.allExchanges`: The questions on the way to them.
* `Cache.Remembers`: What a memory holds after some questions.

## Theorems

* `remembers_reply`: One question.
* `remembers_runWith`: One evaluation.
* `remembers_serve`, `remembers_serveAll`: One request and all of them.
* `serveAll_eq_serve_empty`: What a memory answers, and how large it gets.
-/

namespace Decision

/-- A question with the reply it had. -/
abbrev Exchange := (call : Call) × call.Reply

/-- The questions that an evaluation asks and the replies they have, where a
    reply depends on a state and may change it. -/
def Consultation.exchangesWith {α σ : Type} (reply : (call : Call) → σ → call.Reply × σ) :
    Consultation α → σ → List Exchange
  | done _, _ => []
  | ask call next, state =>
      let (answer, after) := reply call state
      ⟨call, answer⟩ :: (next answer).exchangesWith reply after

/-- What a memory is used for: a single cell, or the evaluation of a table. -/
inductive Request where
  | condition (cell : Expression) (value : Value) (context : Context)
  | output (cell : Expression) (context : Context)
  | evaluation (converter? : String → Option Converter) (table : Table) (supplied : Variables)

/-- The answers that a request can have. -/
def Request.Answer : Request → Type
  | .condition .. => Except ExpressionError Bool
  | .output .. => Except ExpressionError Value
  | .evaluation .. => Except EvalError Report

/-- The input cell that a question is about. -/
def Call.inputCell? : Call → Option Expression
  | .condition cell _ _ => some cell
  | _ => none

/-- The output cell that a question is about. -/
def Call.outputCell? : Call → Option Expression
  | .output cell _ => some cell
  | _ => none

/-- The engine of some converters that understands cells in the simple language
    and remembers nothing. -/
def Engine.simple (converter? : String → Option Converter) : Engine := ⟨converter?, .simple⟩

/-- The answer to a request where nothing is remembered. -/
def Request.plainAnswer : (request : Request) → request.Answer
  | .condition cell value context => Evaluator.simple.condition cell value context
  | .output cell context => Evaluator.simple.output cell context
  | .evaluation converter? table supplied => (Engine.simple converter?).report table supplied

namespace Cache

/-- The answer to a request, and the memory afterwards. -/
def serve (cache : Cache) : (request : Request) → request.Answer × Cache
  | .condition cell value context => cache.condition cell value context
  | .output cell context => cache.output cell context
  | .evaluation converter? table supplied => report converter? table supplied cache

/-- The questions asked in answering a request. -/
def exchanges (cache : Cache) : Request → List Exchange
  | .condition cell value context =>
      [⟨.condition cell value context, (cache.condition cell value context).1⟩]
  | .output cell context => [⟨.output cell context, (cache.output cell context).1⟩]
  | .evaluation converter? table supplied =>
      (table.consult supplied).exchangesWith (reply converter?) cache

/-- The answers to requests that share a memory, and the memory afterwards. -/
def serveAll : List Request → Cache → List ((request : Request) × request.Answer) × Cache
  | [], cache => ([], cache)
  | request :: requests, cache =>
      let (answer, after) := cache.serve request
      let (answers, last) := serveAll requests after
      (⟨request, answer⟩ :: answers, last)

/-- The questions asked in answering requests that share a memory. -/
def allExchanges : List Request → Cache → List Exchange
  | [], _ => []
  | request :: requests, cache =>
      cache.exchanges request ++ allExchanges requests (cache.serve request).2

/-- Whether a cell had the reply that a memory of nothing gives. -/
def Fresh : Exchange → Prop
  | ⟨.condition cell value context, answer⟩ => answer = (empty.condition cell value context).1
  | ⟨.output cell context, answer⟩ => answer = (empty.output cell context).1
  | _ => True

/-- A memory holds the readings of the cells that some questions were about, and
    of no others. -/
structure Remembers (cache : Cache) (calls : List Call) : Prop where
  conditions : Holds Condition.parse? cache.conditions
    (Expression.readable Condition.parse? (calls.filterMap Call.inputCell?))
  operands : Holds Operand.parse? cache.operands
    (Expression.readable Operand.parse? (calls.filterMap Call.outputCell?))

theorem remembers_empty : empty.Remembers [] := ⟨holds_empty, holds_empty⟩

/-! ## One question -/

variable {cache : Cache} {calls : List Call}

theorem condition_answer (h : cache.Remembers calls) (cell : Expression) (value : Value)
    (context : Context) :
    (cache.condition cell value context).1 = Evaluator.simple.condition cell value context := by
  show (readThrough Condition.parse? cache.conditions cell).1 >>= _ = _
  rw [readThrough_answer h.conditions]
  rfl

theorem output_answer (h : cache.Remembers calls) (cell : Expression) (context : Context) :
    (cache.output cell context).1 = Evaluator.simple.output cell context := by
  show (readThrough Operand.parse? cache.operands cell).1 >>= _ = _
  rw [readThrough_answer h.operands]
  rfl

theorem filterMap_append_none {cell? : Call → Option Expression} {call : Call}
    (h : cell? call = none) : (calls ++ [call]).filterMap cell? = calls.filterMap cell? := by
  rw [List.filterMap_append, List.filterMap_cons_none h, List.filterMap_nil, List.append_nil]

/-- A question that is not about a cell asks for nothing to be remembered. -/
theorem remembers_append (h : cache.Remembers calls) {call : Call}
    (hinput : call.inputCell? = none) (houtput : call.outputCell? = none) :
    cache.Remembers (calls ++ [call]) := by
  constructor
  · rw [filterMap_append_none hinput]
    exact h.conditions
  · rw [filterMap_append_none houtput]
    exact h.operands

theorem remembers_condition (h : cache.Remembers calls) (cell : Expression) (value : Value)
    (context : Context) :
    (cache.condition cell value context).2.Remembers
      (calls ++ [.condition cell value context]) := by
  constructor
  · rw [List.filterMap_append]
    exact readThrough_holds h.conditions cell
  · rw [filterMap_append_none rfl]
    exact h.operands

theorem remembers_output (h : cache.Remembers calls) (cell : Expression) (context : Context) :
    (cache.output cell context).2.Remembers (calls ++ [.output cell context]) := by
  constructor
  · rw [filterMap_append_none rfl]
    exact h.conditions
  · rw [List.filterMap_append]
    exact readThrough_holds h.operands cell

/-- One question: the reply is that of the simple evaluator, and the memory
    remembers one question more. -/
theorem remembers_reply (h : cache.Remembers calls) (converter? : String → Option Converter)
    (call : Call) :
    (reply converter? call cache).1 = (Engine.simple converter?).reply call ∧
      (reply converter? call cache).2.Remembers (calls ++ [call]) := by
  cases call with
  | lookup => exact ⟨rfl, remembers_append h rfl rfl⟩
  | convert => exact ⟨rfl, remembers_append h rfl rfl⟩
  | condition cell value context =>
      exact ⟨condition_answer h cell value context, remembers_condition h cell value context⟩
  | output cell context =>
      exact ⟨output_answer h cell context, remembers_output h cell context⟩

theorem fresh_reply (converter? : String → Option Converter) (call : Call) :
    Fresh ⟨call, (Engine.simple converter?).reply call⟩ := by
  cases call with
  | lookup => trivial
  | convert => trivial
  | condition cell value context =>
      exact (condition_answer remembers_empty cell value context).symm
  | output cell context => exact (output_answer remembers_empty cell context).symm

/-- A cell that is in another language or cannot be read changes no memory. -/
theorem condition_of_not_isReadable {cell : Expression}
    (h : cell.isReadable Condition.parse? = false) (cache : Cache) (value : Value)
    (context : Context) : (cache.condition cell value context).2 = cache := by
  show (⟨(readThrough Condition.parse? cache.conditions cell).2, cache.operands⟩ : Cache) = cache
  rw [readThrough_of_not_isReadable h]

theorem output_of_not_isReadable {cell : Expression}
    (h : cell.isReadable Operand.parse? = false) (cache : Cache) (context : Context) :
    (cache.output cell context).2 = cache := by
  show (⟨cache.conditions, (readThrough Operand.parse? cache.operands cell).2⟩ : Cache) = cache
  rw [readThrough_of_not_isReadable h]

/-! ## Whole evaluations -/

/-- One evaluation: it asks what it would ask with nothing remembered and has
    the same replies and the same outcome. -/
theorem remembers_runWith {α : Type} (h : cache.Remembers calls)
    (converter? : String → Option Converter) (c : Consultation α) :
    (c.runWith (reply converter?) cache).1 = c.run (Engine.simple converter?).reply ∧
      (c.runWith (reply converter?) cache).2.Remembers
        (calls ++ c.calls (Engine.simple converter?).reply) ∧
      c.exchangesWith (reply converter?) cache =
        (c.calls (Engine.simple converter?).reply).map fun call =>
          ⟨call, (Engine.simple converter?).reply call⟩ := by
  induction c generalizing cache calls with
  | done outcome =>
      refine ⟨rfl, ?_, rfl⟩
      rw [Consultation.calls, List.append_nil]
      exact h
  | ask call next ih =>
      rcases remembers_reply h converter? call with ⟨hreply, hafter⟩
      -- The reply is the same, so the same branch is taken.
      rcases ih ((Engine.simple converter?).reply call) hafter with
        ⟨hrun, hremembers, hexchanges⟩
      have hstep : (Consultation.ask call next).runWith (reply converter?) cache =
          (next (reply converter? call cache).1).runWith (reply converter?)
            (reply converter? call cache).2 := rfl
      have hasked : (Consultation.ask call next).exchangesWith (reply converter?) cache =
          ⟨call, (reply converter? call cache).1⟩ ::
            (next (reply converter? call cache).1).exchangesWith (reply converter?)
              (reply converter? call cache).2 := rfl
      rw [hstep, hasked, hreply]
      refine ⟨hrun, ?_, ?_⟩
      · rw [Consultation.calls, List.append_cons]
        exact hremembers
      · rw [hexchanges]
        rfl

/-! ## Requests -/

/-- One request, of whatever kind. -/
theorem remembers_serve (h : cache.Remembers calls) (request : Request) :
    (cache.serve request).1 = request.plainAnswer ∧
      (cache.serve request).2.Remembers (calls ++ (cache.exchanges request).map Sigma.fst) ∧
      ∀ exchange ∈ cache.exchanges request, Fresh exchange := by
  cases request with
  | condition cell value context =>
      have hanswer := condition_answer h cell value context
      refine ⟨hanswer, remembers_condition h cell value context, fun exchange hexchange => ?_⟩
      rw [List.mem_singleton.mp hexchange]
      exact hanswer.trans (condition_answer remembers_empty cell value context).symm
  | output cell context =>
      have hanswer := output_answer h cell context
      refine ⟨hanswer, remembers_output h cell context, fun exchange hexchange => ?_⟩
      rw [List.mem_singleton.mp hexchange]
      exact hanswer.trans (output_answer remembers_empty cell context).symm
  | evaluation converter? table supplied =>
      rcases remembers_runWith h converter? (table.consult supplied) with
        ⟨hrun, hremembers, hexchanges⟩
      refine ⟨hrun, ?_, fun exchange hexchange => ?_⟩
      · rw [exchanges, hexchanges, List.map_map]
        rw [← List.map_id ((table.consult supplied).calls (Engine.simple converter?).reply)]
          at hremembers
        exact hremembers
      · rw [exchanges, hexchanges] at hexchange
        rcases List.mem_map.mp hexchange with ⟨call, _, rfl⟩
        exact fresh_reply converter? call

/-- Requests one after the other. -/
theorem remembers_serveAll (h : cache.Remembers calls) (requests : List Request) :
    (serveAll requests cache).1 =
        requests.map (fun request => ⟨request, request.plainAnswer⟩) ∧
      (serveAll requests cache).2.Remembers
        (calls ++ (allExchanges requests cache).map Sigma.fst) ∧
      ∀ exchange ∈ allExchanges requests cache, Fresh exchange := by
  induction requests generalizing cache calls with
  | nil =>
      refine ⟨rfl, ?_, List.forall_mem_nil _⟩
      rw [allExchanges, List.map_nil, List.append_nil]
      exact h
  | cons request requests ih =>
      rcases remembers_serve h request with ⟨hanswer, hafter, hfresh⟩
      rcases ih hafter with ⟨hanswers, hlast, hfresh'⟩
      refine ⟨?_, ?_, ?_⟩
      · rw [List.map_cons, ← hanswers, ← hanswer]
        rfl
      · rw [allExchanges, List.map_append, ← List.append_assoc]
        exact hlast
      · rw [allExchanges]
        exact List.forall_mem_append.mpr ⟨hfresh, hfresh'⟩

/-- Whatever a memory is used for, each request has the answer that a memory of
    nothing gives, and so has each question about a cell that is asked on the
    way. Afterwards the memory is as large as the set of the texts of input
    cells that could be read and the set of those of output cells, together. A
    cell that could not be read would leave it as it is. -/
theorem serveAll_eq_serve_empty (requests : List Request) :
    (serveAll requests empty).1 =
        requests.map (fun request => ⟨request, (empty.serve request).1⟩) ∧
      (∀ exchange ∈ allExchanges requests empty, Fresh exchange) ∧
      (serveAll requests empty).2.size =
        (Expression.readable Condition.parse? (((allExchanges requests empty).map
          Sigma.fst).filterMap Call.inputCell?)).card +
        (Expression.readable Operand.parse? (((allExchanges requests empty).map
          Sigma.fst).filterMap Call.outputCell?)).card ∧
      (∀ cell value context, cell.isReadable Condition.parse? = false →
        ((serveAll requests empty).2.condition cell value context).2 =
          (serveAll requests empty).2) ∧
      ∀ cell context, cell.isReadable Operand.parse? = false →
        ((serveAll requests empty).2.output cell context).2 = (serveAll requests empty).2 := by
  rcases remembers_serveAll remembers_empty requests with ⟨hanswers, hremembers, hfresh⟩
  rw [List.nil_append] at hremembers
  refine ⟨?_, hfresh, ?_, ?_, ?_⟩
  · rw [hanswers]
    refine List.map_congr_left fun request _ => ?_
    rw [(remembers_serve remembers_empty request).1]
  · rw [size, size_of_holds hremembers.conditions, size_of_holds hremembers.operands]
  · exact fun cell value context h => condition_of_not_isReadable h _ value context
  · exact fun cell context h => output_of_not_isReadable h _ context

end Cache

end Decision
