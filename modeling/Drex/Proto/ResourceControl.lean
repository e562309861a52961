import Drex.Filesystem.Path

/-
  The messages of `resource_control.proto`, with the fields
  the integrated client sets and reads.

  Key definitions include:
    * `ControllerStatus`
    * `ApplyResourceRequest`
    * `ResourceInfo`
    * `ResourceResponse`
-/

------------------------------------------------------------
-- The Controller
------------------------------------------------------------

namespace Drex

/- `hcp::Status`. -/
structure ControllerStatus where
  errcode : Int
  errmsg : Str
deriving DecidableEq

/- The fields a client can leave unset are optional. -/
structure ApplyResourceRequest where
  resourceType : Str
  nums : Int
  memreq : Option Int
  corereq : Option Int
  pid : Option Int
  utilizationreq : Option Int
deriving DecidableEq

structure NodeId where
  ip : Str
  port : Int
deriving DecidableEq

structure ResourceInfo where
  node : Option NodeId
  cgroupPath : Option Str
  cpuCores : List Int
deriving DecidableEq

/- A status, if it is set, with what was answered. -/
structure ResourceResponse (α : Type) where
  status : Option ControllerStatus
  answer : α
deriving DecidableEq

namespace ResourceResponse

variable {α : Type}

/- `response.status().errcode()`. -/
def errcode (response : ResourceResponse α) : Int :=
  match response.status with
  | none => 0
  | some status => status.errcode

/- `response.status().errmsg()`. -/
def errmsg (response : ResourceResponse α) : Str :=
  match response.status with
  | none => []
  | some status => status.errmsg

end ResourceResponse

/-
  What a call to the controller ends with: the text of
  `Failed`, or a response.
-/
abbrev ControllerReply (α : Type) :=
  Except Str (ResourceResponse α)

end Drex
