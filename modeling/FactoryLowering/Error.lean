import FactoryLowering.Tree.Types

/-! What can go wrong, and what is reported without failing: causes, and the wording of each. -/
namespace FactoryLowering

inductive ConfigFault where
  | missing (setting : String)
  | originNotQualified (name : String)
  | targetNotQualified (name : String)
  | methodNotIdentifier (name : String)
  | sameOwner (name : String)

inductive CallFault where
  | unpaired (helper : String) (count : Nat)
  | ownerNotClass (owner : JavaType)
  | unresolved
  /-- A reason given by a pass from outside the library. -/
  | other (reason : String)

inductive InternalFault where
  | noScopeToLeave (label : String)
  | aritiesLeftOver
  /-- A reason given by a pass from outside the library. -/
  | other (reason : String)

inductive Error where
  | config (fault : ConfigFault)
  | invalidPattern (pattern : String)
  | call (fault : CallFault)
  | internal (fault : InternalFault)

def ConfigFault.message : ConfigFault → String
  | .missing setting => "missing " ++ setting
  | .originNotQualified name => "origin '" ++ name ++ "' is not a fully-qualified type name"
  | .targetNotQualified name => "target '" ++ name ++ "' is not a fully-qualified type name"
  | .methodNotIdentifier name => "method '" ++ name ++ "' is not an identifier"
  | .sameOwner name => "origin and target are both '" ++ name ++ "'"

def CallFault.message : CallFault → String
  | .unpaired helper count =>
    helper ++ " takes key/value pairs, found " ++ toString count ++ " arguments"
  | .ownerNotClass owner => "declaring type " ++ owner.text ++ " is not a class type"
  | .unresolved => "call has no resolved method"
  | .other reason => reason

def InternalFault.message : InternalFault → String
  | .noScopeToLeave label => "type scope stack empty leaving " ++ label
  | .aritiesLeftOver => "arities recorded for a type that was never closed"
  | .other reason => reason

def Error.message : Error → String
  | .config fault => "Configuration error: " ++ fault.message
  | .invalidPattern pattern =>
    "Invalid method pattern '" ++ pattern ++ "': expected '<owner> <name>(..)'"
  | .call fault => "Cannot build replacement call: " ++ fault.message
  | .internal fault => "Internal backport error: " ++ fault.message

inductive Warning where
  | callKept (id : NodeId) (cause : Error)
  /-- A type has a method of the helper's name that fits, but it is not static. -/
  | instanceHelper (label helper : String) (arity : Nat)
  | noHelper (label helper : String) (arity : Nat)
  | nameAlreadyBound (fqn : String)
  | unitKept (index : Nat) (cause : Error)

def Warning.message : Warning → String
  | .callKept id cause => "call " ++ idText id ++ " left unchanged: " ++ cause.message
  | .instanceHelper label helper arity =>
    label ++ " already declares a non-static " ++ helper ++ " taking " ++ toString arity ++
      " arguments; rewritten calls bind to it"
  | .noHelper label helper arity =>
    label ++ ": no " ++ helper ++ " helper for arity " ++ toString arity
  | .nameAlreadyBound fqn =>
    "not importing " ++ fqn ++ ": another import already binds '" ++ Text.simpleName fqn ++ "'"
  | .unitKept index cause => "unit " ++ toString index ++ " left unchanged: " ++ cause.message

end FactoryLowering
