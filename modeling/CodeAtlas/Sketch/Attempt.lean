import CodeAtlas.Repair.Strategy
import CodeAtlas.Sketch.Estimate
import CodeAtlas.Sketch.Extract
import CodeAtlas.Sketch.Hint

/-! Sketching: the methods are tried in the order of the hints until one finds something, and the
success becomes a hint. -/

namespace CodeAtlas.Sketch

open Repair (Budget)

/-- An outline with the method that made it. -/
structure Sketched where
  method : Method
  outline : Outline

def Sketched.confidence (sketched : Sketched) : Binary := sketched.method.confidence

/-- The outline that a method makes of a text. -/
def Method.sketch? (method : Method) (text : Text) (language : Language) : Option Outline :=
  match method with
  | regexExtraction =>
    let outline := extract text language
    if outline.isBare then none else some outline
  | contentStatistics => statistics text language
  | minimalStructure => minimal text

/-- Tries methods in order. The time is looked at before each of them; `look` numbers the looks. -/
def firstSketch (text : Text) (language : Language) (budget : Budget) :
    Nat → List Method → Option Sketched
  | _, [] => none
  | look, method :: rest =>
    if budget.expired look then none
    else
      match method.sketch? text language with
      | some outline => some ⟨method, outline⟩
      | none => firstSketch text language budget (look + 1) rest

/-- Sketches a text, and remembers the method that succeeded. -/
def attempt (hints : Hints) (text : Text) (language : Language) (budget : Budget) :
    Option Sketched × Hints :=
  match firstSketch text language budget 0 (hints.order language text.size) with
  | some sketched => (some sketched, hints.remember language text.size sketched.method)
  | none => (none, hints)

end CodeAtlas.Sketch
