import ProtoSchema.Value.Writer

/-! # Clients

A client sends the JSON text of a request to a method of a service and reads the text that comes back.
-/

namespace ProtoSchema

structure RpcType where
  service : String
  method : String
  request : ValueType
  response : ValueType
deriving Repr

/-- The route of a method below the address of its server. -/
def methodPath (service method : String) : String := "/" ++ service ++ "/" ++ method

structure Sent where
  service : String
  method : String
  body : String
deriving DecidableEq, Repr

namespace Sent

def path (s : Sent) : String := methodPath s.service s.method

end Sent

namespace RpcType

def send (r : RpcType) (c : Catalog) (request : Value) : Sent :=
  ⟨r.service, r.method, c.encode r.request request⟩

/-- Makes a call over a transport that answers with a text. -/
def call (r : RpcType) (c : Catalog) (transport : Sent → String) (request : Value) :
    Except ReadFault Value :=
  c.decode r.response (transport (r.send c request))

end RpcType

end ProtoSchema
