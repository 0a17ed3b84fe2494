import PathOptions.Resolve.Property
/-!
The assignments of a profile for one file. The option `profile` includes another profile at its
place, an option `no-NAME` sets `NAME` to `no`, and locked options are left out. Inclusion stops at
a depth, so cycles do no harm.
-/

namespace PathOptions

inductive Instruction where
  | include (profile : Text)
  | assign (key value : Text)
  deriving DecidableEq, Repr

def Instruction.ofOption (option : Assignment) : Instruction :=
  if option.1 = ['p', 'r', 'o', 'f', 'i', 'l', 'e'] then .include option.2
  else if ['n', 'o', '-'].isPrefixOf option.1 then .assign (option.1.drop 3) ['n', 'o']
  else .assign option.1 option.2

namespace Profile

/-- The assignment that sets an option for the file, or none if the option is locked. -/
def assign (ctx : Context) (properties : List Assignment) (key value : Text) :
    Logged (List Assignment) := do
  let text := Property.substitute properties value
  if key ∈ ctx.locked then
    Logged.tell (.optionLocked key)
    return []
  Logged.tell (.optionSet key text)
  return [(key, text)]

/-- The assignments of options, given those of the profiles that they include. -/
def assignmentsOf (ctx : Context) (properties : List Assignment)
    (included : Profile → Logged (List Assignment)) :
    List Assignment → Logged (List Assignment)
  | [] => pure []
  | option :: rest => do
    let first ← match Instruction.ofOption option with
      | .include name =>
        match Profile.find? ctx.profiles name with
        | none => do
          Logged.tell (.profileUnknown name)
          pure []
        | some profile => do
          Logged.tell (.profileIncluded name)
          included profile
      | .assign key value => assign ctx properties key value
    let others ← assignmentsOf ctx properties included rest
    return first ++ others

/-- The assignments of a profile when so many levels of inclusion, its own one counted, are
left. -/
def applyLevels (ctx : Context) (properties : List Assignment) :
    (levels : Nat) → Profile → Logged (List Assignment)
  | 0, _ => do
    Logged.tell .inclusionTooDeep
    return []
  | levels + 1, profile => do
    Logged.tell (.profileEntered profile.name (ctx.maxDepth + 1 - levels))
    assignmentsOf ctx properties (applyLevels ctx properties levels) profile.options

/-- The assignments of a profile that is itself included at a depth. -/
def apply (ctx : Context) (properties : List Assignment) (depth : Int) (profile : Profile) :
    Logged (List Assignment) :=
  applyLevels ctx properties (ctx.maxDepth + 1 - depth).toNat profile

end Profile

end PathOptions
