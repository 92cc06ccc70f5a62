import DataAccess.Compile.Category
import DataAccess.Compile.Draft

/-!
This module contains the deliveries of a method's work: in place, in a future, in a call that
reports to callbacks, or in a stream. What leaves the caller's thread captures what it needs first.
-/

namespace DataAccess

open Code (Block CodeType Expr Stmt)

structure Work where
  setup : List Stmt
  capture : List Stmt
  body : Block
  value : CodeType
  inTransaction : Bool

def ownHandle : Expr :=
  .field (.var "self") "__db"

def handleFor : Delivery → Expr
  | .direct => ownHandle
  | _ => .var "__db"

def captureHandle : Stmt :=
  .bind false "__db" none (.call .share [.borrow ownHandle])

def captureSelf : Stmt :=
  .bind false "__this" none (.call .clone [.var "self"])

def Method.value (m : Method) : CodeType :=
  match m.returns with
  | some type => .declared type
  | none => .unit

def callbackName : String :=
  "callback"

namespace Work

def direct (w : Work) : Block :=
  if w.inTransaction then
    .mk w.setup (some (.method ownHandle .runInTransaction [.closure false [] none w.body]))
  else w.body.prepend w.setup

def moved (w : Work) (params : List (String × CodeType)) (value : CodeType) : Expr :=
  .block (.mk w.capture (some (.closure true params (some (.result value)) w.body)))

def signalParam : String × CodeType :=
  ("_signal", .signal)

def future (w : Work) : Block :=
  .mk w.setup (some (.call .createFuture
    [.borrow ownHandle, .bool w.inTransaction, w.moved [signalParam] w.value]))

def suspend (w : Work) : Block :=
  .mk (w.setup ++ [.run (.call .launch
    [.borrow ownHandle, .bool w.inTransaction, .var callbackName, w.moved [signalParam] w.value])])
    none

/-- The work in a stream that runs again whenever one of the tables changes. -/
def stream (w : Work) (tables : List String) : Block :=
  .mk w.setup (some (.call .createStream
    [.borrow ownHandle, .bool w.inTransaction, .borrow (.array (tables.map .text)),
     w.moved [] (.option w.value)]))

def deliver (w : Work) (m : Method) (category : String) : Except Problem Block :=
  match m.delivery with
  | .direct => .ok w.direct
  | .future => .ok w.future
  | .suspend => .ok w.suspend
  | .stream => .error (.unsupportedDelivery m.name category .stream)

end Work

end DataAccess
