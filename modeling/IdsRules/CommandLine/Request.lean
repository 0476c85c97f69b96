import IdsRules.CommandLine.Word
import IdsRules.Conversion.Settings

/-!
# What the command line asks for

The words of the command line are taken from left to right. The first operand
is the rule file, and a terminator next to it belongs to it; every other
operand, and every word that is no switch, is left over. A use of a switch has
its effects at once: it takes an argument that it carries or else the operand
behind it, and letters of one dash may follow each other as long as they take no
argument. Help ends the reading there and then. What is missing or left over is
found out at the end.
-/

namespace IdsRules.CommandLine

/-- What the program is asked to do. -/
structure Request where
  rules : Text
  /-- The output file; empty if it is to be named after the rule file. -/
  output : Text := []
  settings : Settings := {}
deriving DecidableEq, Repr

/-- Why the command line asks for no conversion. -/
inductive Ending where
  | help
  | misuse (misuse : Misuse)
deriving DecidableEq, Repr

/-- A switch with the argument that it takes. -/
structure Effect where
  switch : Switch
  /-- Its argument; empty if it takes none. -/
  argument : Text := []
deriving DecidableEq, Repr

/-- What a use of a switch comes to. -/
structure Uses where
  effects : List Effect
  takesNext : Bool := false
deriving DecidableEq, Repr

namespace Uses

def after (effect : Effect) (uses : Uses) : Uses :=
  { uses with effects := effect :: uses.effects }

/-- A switch that carries no argument, with the operand behind it. -/
def plain (next : Option Text) (switch : Switch) : Except Misuse Uses :=
  if switch.takesArgument then
    match next with
    | some argument => .ok { effects := [⟨switch, argument⟩], takesNext := true }
    | none => .error (.argumentMissing switch)
  else .ok { effects := [⟨switch, []⟩] }

/-- The argument that a switch takes over from its use. A terminator is never
an argument, so one that is attached to a switch stands for the empty text. -/
def taken (argument : Text) : Text :=
  if argument = "--".toList then [] else argument

/-- A switch that carries an argument. When a switch of one letter takes none,
the argument is read as more letters, whether or not an equals sign stands in
between; it is an error of the last switch that was read if the next letter is
no switch. -/
def attach (next : Option Text) (switch : Switch) (isShort : Bool) :
    Text → Except Misuse Uses
  | [] =>
    if switch.takesArgument then .ok { effects := [⟨switch, []⟩] }
    else .error (.argumentIgnored switch [])
  | c :: rest =>
    if switch.takesArgument then .ok { effects := [⟨switch, taken (c :: rest)⟩] }
    else
      match if isShort then Switch.ofSpelling? ['-', c] else none with
      | none => .error (.argumentIgnored switch (c :: rest))
      | some inner =>
        (if rest.isEmpty then plain next inner
          else attach next inner true rest).map (after ⟨switch, []⟩)

def ofUse (next : Option Text) (use : SwitchUse) : Except Misuse Uses :=
  match use.attached with
  | none => plain next use.switch
  | some argument => attach next use.switch (use.spelling.length == 2) argument

end Uses

/-- What has been read of the command line. -/
structure Reading where
  rules : Option Text := none
  output : Text := []
  settings : Settings := {}
  leftOver : List Text := []
deriving DecidableEq, Repr

namespace Reading

def leave (r : Reading) (words : List Text) : Reading :=
  { r with leftOver := r.leftOver ++ words }

def apply (r : Reading) (effect : Effect) : Except Ending Reading :=
  match effect.switch with
  | .help => .error .help
  | .output => .ok { r with output := effect.argument }
  | .pretty => .ok { r with settings := { r.settings with layout := .indented } }
  | .raw => .ok { r with settings := { r.settings with keepSource := true } }
  | .noRaw => .ok { r with settings := { r.settings with keepSource := false } }
  | .sid => .ok { r with settings := { r.settings with sidFilter := effect.argument } }
  | .noProgress => .ok r

def applyAll (r : Reading) : List Effect → Except Ending Reading
  | [] => .ok r
  | effect :: effects =>
    match r.apply effect with
    | .error ending => .error ending
    | .ok r => applyAll r effects

/-- The reading after a use of a switch, and whether the operand behind it was
taken. -/
def takeUse (r : Reading) (next : Option Text) (use : SwitchUse) :
    Except Ending (Reading × Bool) :=
  match Uses.ofUse next use with
  | .error misuse => .error (.misuse misuse)
  | .ok uses =>
    match r.applyAll uses.effects with
    | .error ending => .error ending
    | .ok r => .ok (r, uses.takesNext)

def nextOperand? : List Word → Option Text
  | .operand s :: _ => some s
  | _ => none

/-- The reading of a sequence of words. The flag says that the first of them
has been taken by the switch in front of it. -/
def scan (r : Reading) (taken : Bool) : List Word → Except Ending Reading
  | [] => .ok r
  | word :: words =>
    if taken then scan r false words
    else
      match word with
      | .use u =>
        match r.takeUse (nextOperand? words) u with
        | .error ending => .error ending
        | .ok (r, taken) => scan r taken words
      | .unknown written => scan (r.leave [written]) false words
      | .operand s =>
        if r.rules.isNone then
          match words with
          | .terminator :: _ => scan { r with rules := some s } true words
          | _ => scan { r with rules := some s } false words
        else scan (r.leave [s]) false words
      | .terminator =>
        match r.rules, nextOperand? words with
        | none, some s => scan { r with rules := some s } true words
        | _, _ => scan (r.leave ["--".toList]) false words

def finish (r : Reading) : Except Ending Request :=
  match r.rules with
  | none => .error (.misuse .rulesMissing)
  | some rules =>
    if r.leftOver.isEmpty then .ok { rules, output := r.output, settings := r.settings }
    else .error (.misuse (.unrecognized r.leftOver))

end Reading

/-- What the arguments of the program ask for. -/
def Request.read (arguments : List Text) : Except Ending Request :=
  match Word.classifyAll arguments with
  | .error misuse => .error (.misuse misuse)
  | .ok words =>
    match Reading.scan {} false words with
    | .error ending => .error ending
    | .ok r => r.finish

end IdsRules.CommandLine
