import PathOptions.Resolve.Inclusion
import PathOptions.Resolve.Resolution
/-!
The sub-profiles of a parent and those of them that a step towards the file calls for: a
sub-profile bears the name of the parent, a slash and more, and is applied at each step that its
description matches.
-/

namespace PathOptions

/-- Whether a name is that of a sub-profile of a parent. -/
def Profile.isSubOf (parent profile : Profile) : Bool :=
  (parent.name ++ ['/']).isPrefixOf profile.name

namespace Context

def subprofiles (ctx : Context) (parent : Profile) : List Profile :=
  ctx.profiles.filter parent.isSubOf

/-- Whether a profile has a description that matches a step. -/
def calls (ctx : Context) (step : Text) (profile : Profile) : Logged Bool := do
  match profile.description with
  | none => return false
  | some description =>
    Logged.tell (.descriptionTested profile.name description)
    ctx.matcher.describes description step

/-- The sub-profiles that match a step, each at most once. -/
def matching (ctx : Context) (parent : Profile) (step : Text) : Logged (List Profile) :=
  (ctx.subprofiles parent).filterM (ctx.calls step)

def applyOne (ctx : Context) (properties : List Assignment) (resolution : Resolution)
    (profile : Profile) : Logged Resolution := do
  Logged.tell (.profileApplied profile.name)
  let assignments ← profile.apply ctx properties 0
  return resolution.add profile.name assignments

def applyStep (ctx : Context) (parent : Profile) (properties : List Assignment)
    (resolution : Resolution) (step : Text) : Logged Resolution := do
  Logged.tell (.stepChecked step)
  (ctx.subprofiles parent).foldlM
    (fun resolution profile => do
      if ← ctx.calls step profile then ctx.applyOne properties resolution profile
      else return resolution)
    resolution

/-- Applies a parent and then, step by step towards the file, its sub-profiles. -/
def applyProfiles (ctx : Context) (parent : Profile) (child : Text)
    (properties : List Assignment) : Logged Resolution := do
  let resolution ← ctx.applyOne properties (.start parent.name child properties) parent
  for profile in ctx.subprofiles parent do
    if profile.description.isNone then Logged.tell (.descriptionMissing profile.name)
  (Path.steps ctx.sep child).foldlM (ctx.applyStep parent properties) resolution

end Context

end PathOptions
