import ExampleTests.Log.Directive

/-! Which events are shown. A filter is written as directives between commas;
of those that fit an event the most specific one decides. -/

namespace ExampleTests

structure Filter where
  directives : List Directive

namespace Filter

def upTo (threshold : Threshold) : Filter := ⟨[{ threshold }]⟩

/-- Of directives about the same subject the last one counts. -/
def latest : List Directive → List Directive
  | [] => []
  | d :: rest => if rest.any (·.subject = d.subject) then latest rest else d :: latest rest

/-- A filter without directives lets errors through. -/
def ofText? (text : String) : Option Filter :=
  match (text.toList.splitOn ',').filter (!·.isEmpty) with
  | [] => some (upTo (some .error))
  | parts => (parts.mapM Directive.ofText?).map fun ds => ⟨latest ds⟩

/-- Where no filter is set, or none that can be read, informative events are shown. -/
def ofSetting (setting : Option String) : Filter :=
  (setting.bind ofText?).getD (upTo (some .info))

def mostSpecific? (ds : List Directive) : Option Directive :=
  ds.foldl (fun best d => if best.any (d.subject.isBelow ·.subject) then best else some d) none

def shows (f : Filter) (e : Event) : Bool :=
  (f.directives.any fun d =>
    d.subject.isAboutActivities && e.activity?.any d.subject.fitsActivity &&
      d.threshold.allows e.level) ||
  (mostSpecific? (f.directives.filter fun d => d.subject.isAboutEvents && d.subject.fitsEvent e)).any
    (·.threshold.allows e.level)

def log (f : Filter) (events : List Event) : String :=
  String.join ((events.filter f.shows).map Event.line)

end Filter

end ExampleTests
