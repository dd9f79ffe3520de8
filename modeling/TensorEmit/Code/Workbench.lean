import TensorEmit.Code.Construct

/-!
# The workbench

A place to put emitted code together by hand. It holds fragments, containers of fragments and
composers, which may share members, together with the sets of headers. A member that is changed
later is changed wherever it is a member. Every step gives the new workbench together with its
result, since a step that fails can have changed a set of headers already.
-/

namespace TensorEmit.Code

/-- A thing on the workbench; members are named by their numbers. What holds the members is sealed
if it is no list: it has no members then and can take none. -/
inductive Item where
  | fragment (f : Fragment)
  | container (f : Fragment) (members : List Nat) (isSealed : Bool)
  /-- A composer keeps the text that it composed last until a member is added. -/
  | composer (members : List Nat) (isSealed : Bool) (kept : Option String)

/-- A workbench: its items by number, their names, and the sets of headers. -/
structure Workbench where
  items : List Item
  names : Entries String Nat
  sets : HeaderSets

/-- A member as it is given: the name of an item, or some value. -/
inductive Member where
  | item (name : String)
  | value (v : Value)

/-- The classes of items. -/
inductive ItemClass where
  | ofTemplate (t : Template)
  /-- A class that stands for all fragments, or for all containers, and has no template. -/
  | bare (isContainer : Bool)
  | composer

/-- The class of a name. -/
def ItemClass.ofName? : String → Option ItemClass
  | "Snippet" => some (.bare false)
  | "SnippetContainerBase" => some (.bare true)
  | "Composer" => some .composer
  | name => (Template.ofClassName? name).map .ofTemplate

/-- How a class made by the user gives its headers. -/
inductive CustomHeaders where
  | nothing
  | set (headers : List String)
  /-- Something of another kind. -/
  | other (v : Value)

/-- A class made by the user. -/
structure CustomClass where
  template : Value
  headers : CustomHeaders
  isContainer : Bool

/-- How a message names the class of a template. -/
def Template.classText (t : Template) : String :=
  Value.classText ("utensor_cgen.snippets._snippets." ++ t.className)

/-- How a message names a class without a template. -/
def bareClassText (isContainer : Bool) : String :=
  Value.classText ("utensor_cgen.snippets._base." ++
    if isContainer then "SnippetContainerBase" else "Snippet")

/-- How a message names a class made by the user. -/
def customClassText : String := Value.classText "driver.Custom"

/-- How a message names the class of an owner of headers. -/
def HeaderOwner.classText : HeaderOwner → String
  | builtIn t => t.classText
  | custom _ => customClassText

namespace Item

/-- How a message names the class of an item. -/
def classText : Item → String
  | fragment f => f.owner.classText
  | container f _ _ => f.owner.classText
  | composer _ _ _ => Value.classText "utensor_cgen.snippets.composer.Composer"

/-- The fragment that an item is or that stands around its members. -/
def fragment? : Item → Option Fragment
  | fragment f => some f
  | container f _ _ => some f
  | composer _ _ _ => none

/-- The item with its fragment changed. -/
def mapFragment (g : Fragment → Fragment) : Item → Item
  | fragment f => fragment (g f)
  | container f members isSealed => container (g f) members isSealed
  | composer members isSealed kept => composer members isSealed kept

end Item

namespace Workbench

/-- An empty workbench. -/
def empty : Workbench := ⟨[], [], []⟩

/-- The number of a named item. -/
def numberOf (w : Workbench) (name : String) : Except Fault Nat :=
  match w.names.get? name with
  | some n => .ok n
  | none => .error (.missing name)

/-- A named item with its number. -/
def find (w : Workbench) (name : String) : Except Fault (Nat × Item) := do
  let n ← w.numberOf name
  match w.items[n]? with
  | some item => return (n, item)
  | none => throw (.missing name)

/-- The fragment of a named item. -/
def findFragment (w : Workbench) (name : String) : Except Fault (Nat × Fragment) := do
  let (n, item) ← w.find name
  match item.fragment? with
  | some f => return (n, f)
  | none => throw .noPart

/-- Puts a new item on the workbench. -/
def put (w : Workbench) (name : String) (item : Item) : Workbench :=
  { w with items := w.items ++ [item], names := w.names.set name w.items.length }

/-- Replaces an item. -/
def replace (w : Workbench) (n : Nat) (item : Item) : Workbench :=
  { w with items := w.items.set n item }

/-! ## Rendering -/

/-- The statements of an item, whose members are nested at most as deep as `fuel`. -/
def statementsWithin (w : Workbench) : (fuel : Nat) → Nat → Except Fault (List Statement)
  | 0, _ => .error .noPart
  | fuel + 1, n =>
    match w.items[n]? with
    | some (.fragment f) => f.statements
    | some (.container f members _) => f.statementsAround (members.mapM (w.statementsWithin fuel))
    | _ => .error .noPart

/-- The statements of an item. A member of a container was made before it or is no container, so
members are not nested deeper than there are items. -/
def statements (w : Workbench) (n : Nat) : Except Fault (List Statement) :=
  w.statementsWithin (w.items.length + 1) n

/-- The text of an item. -/
def text (w : Workbench) (n : Nat) : Except Fault String := textOf <$> w.statements n

/-- The headers of an item. -/
def headersOf (w : Workbench) (n : Nat) : Except Fault Headers :=
  match w.items[n]? with
  | some (.fragment f) => f.headers w.sets
  | some (.container f _ _) => f.headers w.sets
  | _ => .error .noPart

/-- The text that a composer over the members composes now. -/
def composeNow (w : Workbench) (members : List Nat) : Except Fault String := do
  let sets ← members.mapM w.headersOf
  let bodies ← members.mapM w.text
  return composed (Headers.addAll [] sets.flatten) bodies

/-! ## Making items -/

/-- Members as numbers of items; a value is no item. -/
abbrev Held := List (Option Nat × Value)

/-- The members as numbers of items. -/
def resolve (w : Workbench) : List Member → Except Fault Held
  | [] => .ok []
  | .item name :: rest => do
    let n ← w.numberOf name
    return (some n, .none) :: (← w.resolve rest)
  | .value v :: rest => do return (none, v) :: (← w.resolve rest)

/-- The members that a value holds, and whether it can take no more. -/
def heldBy : Value → Except Fault (Held × Bool)
  | .none => .ok ([], false)
  | .list vs => .ok (vs.map fun v => (none, v), false)
  | v =>
    match v.members? with
    | some vs => .ok (vs.map fun v => (none, v), true)
    | none => .error .unfit

/-- Merges the headers of members into those of a container, as far as the members have any. -/
def mergeHeaders (w : Workbench) (o : HeaderOwner) :
    List (Option Nat × Value) → Workbench × Except Fault (List Nat)
  | [] => (w, .ok [])
  | (none, _) :: _ => (w, .error .noPart)
  | (some n, _) :: rest =>
    match w.headersOf n with
    | .error f => (w, .error f)
    | .ok hs =>
      let (w', r) := mergeHeaders { w with sets := w.sets.addAll o hs } o rest
      (w', r.map (n :: ·))

/-- Makes a container of a template with members that are given, or else with those of the value
among its arguments. -/
def makeContainer (w : Workbench) (name : String) (t : Template) (given : Entries String Value)
    (members : Option Held) : Workbench × Except Fault Unit :=
  let ready : Except Fault ((String → Value) × Held × Bool) := do
    let arg ← t.arguments given
    match members with
    | some ms => return (arg, ms, false)
    | none => return (arg, ← heldBy (arg memberArgument))
  match ready with
  | .error f => (w, .error f)
  | .ok (arg, ms, isSealed) =>
    let o := HeaderOwner.builtIn t
    match w.mergeHeaders o ms with
    | (w, .error f) => (w, .error f)
    | (w, .ok ns) =>
      match t.bindings arg with
      | .error f => (w, .error f)
      | .ok vars =>
        let own := match t with
          | .context => contextHeaders (arg "ctx_header_name") (arg "ctx_weightheader_name")
          | _ => []
        let w := { w with sets := w.sets.addAll o own }
        (w.put name (.container (Fragment.of t vars) ns isSealed), .ok ())

/-- Makes a fragment of a template, which takes no members. -/
def makeFragment (w : Workbench) (name : String) (t : Template) (given : Entries String Value)
    (members : Option Held) : Workbench × Except Fault Unit :=
  match members, Fragment.construct t given with
  | some _, _ => (w, .error .unfit)
  | none, .error f => (w, .error f)
  | none, .ok f => (w.put name (.fragment f), .ok ())

/-- The members of a composer, each of which has to be a fragment or a container. -/
def composerMembers (w : Workbench) : Held → Except Fault (List Nat)
  | [] => .ok []
  | (none, v) :: _ => .error (.notComposableMembers v.kindText)
  | (some n, _) :: rest => do
    match w.items[n]? with
    | some item =>
      if item.fragment?.isNone then throw (.notComposableMembers item.classText)
      return n :: (← w.composerMembers rest)
    | none => throw .noPart

/-- Whether members are all that is given. -/
def onlyMembers (given : Entries String Value) : Bool := given.all fun e => e.1 == memberArgument

/-- Makes a composer. -/
def makeComposer (w : Workbench) (name : String) (given : Entries String Value)
    (members : Option Held) : Workbench × Except Fault Unit :=
  let ready : Except Fault (List Nat × Bool) := do
    if !onlyMembers given then throw .unfit
    let (ms, isSealed) ← match members with
      | some ms => pure (ms, false)
      | none => heldBy ((given.get? memberArgument).getD .none)
    return (← w.composerMembers ms, isSealed)
  match ready with
  | .error f => (w, .error f)
  | .ok (ns, isSealed) => (w.put name (.composer ns isSealed none), .ok ())

/-- What comes of a class without a template. -/
def bareFault (isContainer : Bool) (given : Entries String Value) (members : Option Held) : Fault :=
  let fits := if isContainer then onlyMembers given else given.isEmpty && members.isNone
  if fits then .noTemplateName (bareClassText isContainer) else .unfit

/-- Makes an item of a class from named arguments and members. -/
def make (w : Workbench) (name : String) (c : ItemClass) (given : Entries String Value)
    (members : Option (List Member)) : Workbench × Except Fault Unit :=
  match members.mapM w.resolve with
  | .error f => (w, .error f)
  | .ok held =>
    match c with
    | .ofTemplate t =>
      if t.isContainer then w.makeContainer name t given held
      else w.makeFragment name t given held
    | .bare isContainer => (w, .error (bareFault isContainer given held))
    | .composer => w.makeComposer name given held

/-- Makes a fragment or a container of a class made by the user. -/
def makeCustom (w : Workbench) (name : String) (c : CustomClass) :
    Workbench × Except Fault Unit :=
  match c.template, c.headers with
  | .none, _ => (w, .error (.noTemplateName customClassText))
  | _, .nothing => (w, .error (.noHeaderSet customClassText))
  | _, .other v => (w, .error (.headersNotSet v.kindText))
  | t, .set hs =>
    let o := HeaderOwner.custom w.items.length
    let f : Fragment := ⟨o, t, false, []⟩
    let item := if c.isContainer then Item.container f [] false else Item.fragment f
    (({ w with sets := w.sets.addAll o hs }).put name item, .ok ())

/-! ## Changing items -/

/-- Adds a fragment to a container. The headers are merged before the member is taken. -/
def addToContainer (w : Workbench) (n : Nat) (f : Fragment) (members : List Nat) (isSealed : Bool)
    (m : Nat) : Workbench × Except Fault Unit :=
  if f.headless then (w, .error .noPart)
  else
    match w.headersOf m with
    | .error e => (w, .error e)
    | .ok hs =>
      let w := { w with sets := w.sets.addAll f.owner hs }
      if isSealed then (w, .error .noPart)
      else (w.replace n (.container f (members ++ [m]) isSealed), .ok ())

/-- Adds a fragment or a container to a composer, which forgets the text it keeps. -/
def addToComposer (w : Workbench) (n : Nat) (members : List Nat) (isSealed : Bool) (m : Nat) :
    Workbench × Except Fault Unit :=
  if isSealed then (w.replace n (.composer members isSealed none), .error .noPart)
  else (w.replace n (.composer (members ++ [m]) isSealed none), .ok ())

/-- Adds a member to an item that takes members. -/
def addMember (w : Workbench) (name : String) (member : Member) : Workbench × Except Fault Unit :=
  match w.find name with
  | .error f => (w, .error f)
  | .ok (_, .fragment _) => (w, .error .noPart)
  | .ok (n, .container f members isSealed) =>
    match w.resolve [member] with
    | .error f => (w, .error f)
    | .ok [(some m, _)] =>
      match w.items[m]? with
      | some (.fragment _) => w.addToContainer n f members isSealed m
      | some item => (w, .error (.notAFragment item.classText))
      | none => (w, .error .noPart)
    | .ok [(none, v)] => (w, .error (.notAFragment v.kindText))
    | .ok _ => (w, .error .noPart)
  | .ok (n, .composer members isSealed _) =>
    match w.resolve [member] with
    | .error f => (w, .error f)
    | .ok [(some m, _)] =>
      match w.items[m]? with
      | some (.composer ms b kept) =>
        (w, .error (.notComposable (Item.composer ms b kept).classText))
      | _ => w.addToComposer n members isSealed m
    | .ok [(none, v)] => (w, .error (.notComposable v.kindText))
    | .ok _ => (w, .error .noPart)

/-- Adds a header for an item and all that share its headers. -/
def addHeader (w : Workbench) (name header : String) : Workbench × Except Fault Unit :=
  match w.findFragment name with
  | .error f => (w, .error f)
  | .ok (_, f) =>
    if f.headless then (w, .error .noPart)
    else ({ w with sets := w.sets.addAll f.owner [header] }, .ok ())

/-- Removes a header for an item and all that share its headers. -/
def dropHeader (w : Workbench) (name header : String) : Workbench × Except Fault Unit :=
  match w.findFragment name with
  | .error f => (w, .error f)
  | .ok (_, f) =>
    if f.headless then (w, .error .noPart)
    else if header ∈ w.sets.of f.owner then
      ({ w with sets := w.sets.drop f.owner header }, .ok ())
    else (w, .error (.missing header))

/-- Changes the variables of an item. -/
def changeVariables (w : Workbench) (name : String) (g : Variables → Except Fault Variables) :
    Workbench × Except Fault Unit :=
  match w.find name with
  | .error f => (w, .error f)
  | .ok (n, item) =>
    match item.fragment? with
    | none => (w, .error .noPart)
    | some f =>
      match g f.vars with
      | .error e => (w, .error e)
      | .ok vars => (w.replace n (item.mapFragment fun f => { f with vars := vars }), .ok ())

/-- Sets variables of an item. -/
def setVariables (w : Workbench) (name : String) (more : Variables) :
    Workbench × Except Fault Unit :=
  w.changeVariables name fun vars => .ok (Entries.setAll vars more)

/-- Adds a member to a variable that holds a list. -/
def appendToVariable (w : Workbench) (name var : String) (v : Value) :
    Workbench × Except Fault Unit :=
  w.changeVariables name fun vars =>
    match vars.get? var with
    | none => .error (.missing var)
    | some (.list vs) => .ok (vars.set var (.list (vs ++ [v])))
    | some _ => .error .noPart

/-- Takes the headers away from an item. -/
def clearHeaders (w : Workbench) (name : String) : Workbench × Except Fault Unit :=
  match w.find name with
  | .error f => (w, .error f)
  | .ok (n, item) => (w.replace n (item.mapFragment fun f => { f with headless := true }), .ok ())

/-- Takes the template away from an item. -/
def clearTemplate (w : Workbench) (name : String) : Workbench × Except Fault Unit :=
  match w.find name with
  | .error f => (w, .error f)
  | .ok (n, item) => (w.replace n (item.mapFragment fun f => { f with template := .none }), .ok ())

/-! ## Reading items -/

/-- The text of a named fragment or container. -/
def render (w : Workbench) (name : String) : Except Fault String := do
  let (n, _) ← w.find name
  w.text n

/-- The headers of a named item in order. -/
def headers (w : Workbench) (name : String) : Except Fault Headers := do
  let (n, _) ← w.find name
  return (← w.headersOf n).sorted

/-- The text of a named composer: the one it keeps, or one that it composes now and keeps. -/
def compose (w : Workbench) (name : String) : Workbench × Except Fault String :=
  match w.find name with
  | .error f => (w, .error f)
  | .ok (n, .composer members isSealed kept) =>
    match kept with
    | some s => (w, .ok s)
    | none =>
      match w.composeNow members with
      | .error f => (w, .error f)
      | .ok s => (w.replace n (.composer members isSealed (some s)), .ok s)
  | .ok _ => (w, .error .noPart)

end Workbench

end TensorEmit.Code
