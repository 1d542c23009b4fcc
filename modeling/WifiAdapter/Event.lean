import WifiAdapter.Chip

/-! What the adapter reports to the application. -/
namespace WifiAdapter

/-- Changes of the link. -/
inductive LinkEvent where
  | up (address : InterfaceAddress)
  | down
  | radioInitFailed (status : Status)
deriving DecidableEq, Repr

/-- Why a socket became readable. -/
inductive ReadStatus where
  | data
  | endOfStream
  | failed (error : SocketError)
deriving DecidableEq, Repr

inductive Event where
  | readable (h : Handle) (status : ReadStatus)
  /-- A connect or a send came to its end; no error is success. -/
  | writable (h : Handle) (error? : Option SocketError)
  | newConnection (listener child : Handle)
  | link (event : LinkEvent)
deriving DecidableEq, Repr

end WifiAdapter
