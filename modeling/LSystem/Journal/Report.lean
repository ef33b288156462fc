import LSystem.Journal.Event
import LSystem.Studio.Easel

/-!
Reports: what is told about an action to a listener, who names the least level that is still of interest.
The events are told in the order in which they come up, and an action that fails has told what it did
until then. Events that nobody listens for are not made, since a report of all generations may be far
longer than the word that they lead to.
-/

namespace LSystem

/-- The events told to a listener of a level. -/
def Report : Type := Level → List Event

namespace Report

def silent : Report := fun _ => []

def ofEvent (event : Event) : Report := fun listener => if listener.hears event.level then [event] else []

/-- Events of one level. -/
def ofEvents (level : Level) (events : Unit → List Event) : Report := fun listener =>
  if listener.hears level then events () else []

instance : Append Report := ⟨fun first second listener => first listener ++ second listener⟩

/-- The report on an outcome; a failure is not told. -/
def ofOutcome {ε β : Type} (outcome : Except ε β) (report : β → Report) : Report :=
  match outcome with
  | .error _ => silent
  | .ok value => report value

/-- One report after the other. -/
def all (reports : List Report) : Report := fun listener => reports.flatMap fun report => report listener

end Report

namespace Rulebook

def collectReport (entries : List (Char × Rule)) : Report :=
  .all ((entries.filter fun entry => Symbol.isControl entry.1).map fun entry =>
    .ofEvent (.controlKeyDropped entry.1))

def adaptReport (before after : Rulebook) (word : Word) : Report :=
  .ofEvent (.rulesAdapted before.size after.size word)

/-- One event for each of the next `n` generations, the first of which has the given number, behind those
told already, which come in reverse. -/
def generationEvents (book : Rulebook) (told : List Event) (number : Nat) (word : Word) :
    Nat → List Event
  | 0 => told.reverse
  | n + 1 =>
    let next := book.step word
    book.generationEvents (.generationGrown number next.length :: told) (number + 1) next n

/-- The report on `n` generations of a word that led to the outcome `grown`. -/
def growReport {ε : Type} (book : Rulebook) (n : Nat) (word : Word) (grown : Except ε Word) : Report :=
  .ofOutcome grown fun grown =>
    .ofEvents .trace (fun _ => book.generationEvents [] 1 word n) ++
      .ofEvent (.wordGrown word n grown.length)

end Rulebook

def drawReport (symbolCount : Nat) (drawn : Except (Fault Float) (List (Segment Float))) : Report :=
  .ofOutcome drawn fun segments => .ofEvent (.wordDrawn symbolCount segments.length)

def Canvas.fitReport (canvas : Canvas Float) (segments : List (Segment Float)) : Report :=
  match canvas.layout? segments with
  | none => .silent
  | some fit =>
    (if fit.collapsed then .ofEvent (.boxCollapsed fit.box.low) else .silent) ++
      .ofEvent (.drawingFitted segments.length fit)

/-- The report on a fusion with the outcome `fused`. -/
def fuseReport (limit : Nat) (segments fused : List (Segment Float)) : Report :=
  if limit < segments.length then .ofEvent (.fusionSkipped segments.length limit)
  else
    .ofEvents .trace (fun _ => (strands segments).flatMap fun strand =>
      strand.folds.reverse.map .pieceFolded) ++
      .ofEvent (.drawingFused segments.length fused.length)

/-- The report on the rendering of a sketch with the outcome `rendered`. -/
def Easel.renderReport (easel : Easel Float) (sketch : Sketch Float)
    (rendered : Except (Fault Float) (Picture Float)) : Report :=
  let rules := sketch.rules.adapt sketch.start
  let grown := easel.grow sketch rules
  sketch.rules.adaptReport rules sketch.start ++
    rules.growReport sketch.generations sketch.start grown ++
    .ofOutcome grown fun word =>
      let drawn := draw rules (easel.gait sketch) word
      drawReport word.length drawn ++
      .ofOutcome drawn fun segments =>
        easel.canvas.fitReport segments ++
        .ofOutcome rendered fun picture =>
          fuseReport easel.settings.fuseLimit (easel.canvas.fit segments) picture.segments ++
            .ofEvent (.pictureRendered sketch.generations picture.symbolCount picture.drawnCount
              picture.segments.length)

end LSystem
