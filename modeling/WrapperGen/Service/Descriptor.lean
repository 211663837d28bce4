import WrapperGen.Files.FilePath
import WrapperGen.Source.Item
/-!
# Descriptions of services

What the generator needs to know of a service to write its wrappers.
-/

namespace WrapperGen

open Files Source

/-- How an operation hands out its result. -/
inductive ResultShape
  /-- A call that completes later. -/
  | asyncCallWrapper
  /-- A response that is there at once. -/
  | syncResponseWrapper
  /-- The value of an asynchronous method. -/
  | deferredValue
  /-- A plain value. -/
  | bareValue
deriving DecidableEq, Repr

namespace ResultShape

def label : ResultShape → String
  | asyncCallWrapper => "async-call"
  | syncResponseWrapper => "sync-response"
  | deferredValue => "deferred"
  | bareValue => "bare"

/-- The name of the shape in reports. -/
def key : ResultShape → String
  | asyncCallWrapper => "async_call_wrapper"
  | syncResponseWrapper => "sync_response_wrapper"
  | deferredValue => "deferred_value"
  | bareValue => "bare_value"

def all : List ResultShape := [asyncCallWrapper, syncResponseWrapper, deferredValue, bareValue]

def ofKey? (key : String) : Option ResultShape := all.find? (·.key == key)

end ResultShape

structure Parameter where
  name : String
  ty : Ty

structure Operation where
  name : String
  parameters : List Parameter
  shape : ResultShape
  /-- The type of the value that a success delivers. -/
  payload : Ty

namespace Operation

/-- Whether the operation is an asynchronous method. -/
def isDeferred (o : Operation) : Bool := o.shape = .deferredValue

end Operation

structure Interface where
  qualifiedName : String
  packageName : String
  simpleName : String
  visibility : Visibility
  origin : FilePath
  operations : List Operation

namespace Interface

/-- The first operation of that name. -/
def operation? (i : Interface) (name : String) : Option Operation :=
  i.operations.find? (·.name == name)

end Interface

end WrapperGen
