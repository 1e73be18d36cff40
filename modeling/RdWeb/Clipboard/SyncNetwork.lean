import RdWeb.Clipboard.MultiClipboards
import RdWeb.Lib.Machine
import Mathlib.Logic.Function.Basic

/-!
# Machines that share their clipboards

`check_clipboard` and `update_clipboard` of `clipboard.rs` at both ends of any number of sessions:
the clipboard service of the controlled side, the loop of `ClientClipboardHandler` and the first
message of a session on the controlling side. A machine can be on either side of several sessions.
-/

namespace RdWeb.MultiClip

/-- The format by which a process marks a clipboard as its own. -/
def rustdeskClipboardOwnerFormat : String := "dyn.com.rustdesk.owner"

/-- The format of a spreadsheet. -/
def clipboardFormatExcelXmlSpreadsheet : String := "XML Spreadsheet"

/-- The two ends of a session. -/
inductive ClipboardSide
  | host
  | client
  deriving DecidableEq, Repr

namespace ClipboardSide

/-- The other end. -/
def other : ClipboardSide → ClipboardSide
  | host => client
  | client => host

/-- The mark of each end. -/
def getOwnerData : ClipboardSide → ByteArray
  | host => [0b01].toByteArray
  | client => [0b10].toByteArray

/-- The mark of either side counts, whichever side asks. -/
def isOwner (_side : ClipboardSide) (data : ByteArray) : Bool :=
  if data.size = 0 then false else data.get! 0 &&& 0b11 != 0

end ClipboardSide

/-- `arboard::ClipboardFormat`; the file urls are a field of the board. -/
inductive ArboardFormat
  | text
  | html
  | rtf
  | imageRgba
  | imagePng
  | imageSvg
  | special (name : String)

/-- Whether an item answers a request for the format. -/
def ArboardFormat.offers : ArboardFormat → ClipboardData → Bool
  | text, .text _ => true
  | html, .html _ => true
  | rtf, .rtf _ => true
  | imageRgba, .image (.rgba ..) => true
  | imagePng, .image (.png _) => true
  | imageSvg, .image (.svg _) => true
  | special name, .special other _ => name == other
  | _, _ => false

/-- The formats that are read from a clipboard, in this order. -/
def supportedFormats : List ArboardFormat :=
  [.text, .html, .rtf, .imageRgba, .imagePng, .imageSvg,
    .special clipboardFormatExcelXmlSpreadsheet, .special rustdeskClipboardOwnerFormat]

/-- What is on the clipboard of a machine. -/
structure Board where
  items : List ClipboardData
  /-- Whether files are copied. -/
  fileUrl : Bool

namespace Board

/-- A clipboard without data. -/
def empty : Board := ⟨[], false⟩

/-- The answer for each format, less those that have none. -/
def getFormats (b : Board) : List ClipboardData :=
  supportedFormats.filterMap fun format => b.items.find? format.offers

end Board

namespace ClipboardData

/-- The item is the mark of an owner. -/
def isMark (side : ClipboardSide) : ClipboardData → Bool
  | special name data => name == rustdeskClipboardOwnerFormat && side.isOwner data
  | _ => false

/-- What goes to the other side: no mark and no empty text. -/
def isSynchronised : ClipboardData → Bool
  | special name _ => name != rustdeskClipboardOwnerFormat
  | text s => s != ""
  | _ => true

end ClipboardData

namespace Board

/-- The data of a clipboard, unless it bears the mark of this side. -/
def getFormatsFilter (b : Board) (side : ClipboardSide) (force : Bool) : List ClipboardData :=
  let data := b.getFormats
  if data.isEmpty then data
  else if !force && data.any (·.isMark side) then []
  else data.filter (·.isSynchronised)

/-- `ClipboardContext::get`; `filesApart` is the feature `unix-file-copy-paste`. -/
def get (b : Board) (filesApart : Bool) (side : ClipboardSide) (force : Bool) :
    List ClipboardData :=
  let data := b.getFormatsFilter side force
  if filesApart && b.fileUrl then [] else data

/-- The content was put there by a session. -/
def Owned (b : Board) : Prop := b.getFormats.any (·.isMark .host)

/-- Whether a clipboard bears a mark is decided by its data. -/
instance (b : Board) : Decidable b.Owned := inferInstanceAs (Decidable (_ = _))

end Board

/-- The machines: their compression, and how RustDesk was built and started on each. -/
structure World (Node : Type*) where
  compress : ByteArray → ByteArray
  decompress : ByteArray → ByteArray
  filesApart : Node → Bool
  /-- Whether the sessions of both sides run in one process. -/
  oneProcess : Node → Bool

/-- One session, as its ends see it at the moment. -/
structure Session (Node : Type*) where
  id : ℕ
  controller : Node
  controlled : Node
  controller_ne_controlled : controller ≠ controlled
  /-- `is_text_clipboard_required` at the controller. -/
  textRequired : Bool
  /-- `disable_clipboard` at the controller. -/
  disableClipboard : Bool
  /-- `can_sub_clipboard_service` at the controlled side. -/
  subscribed : Bool
  /-- `Connection::clipboard` at the controlled side. -/
  clipboard : Bool
  /-- `is_support_multi_clipboard` of the controller, and of the controlled side. -/
  controllerMulti : Bool
  controlledMulti : Bool

/-- A `MultiClipboards` or `Clipboard` message on its way. -/
structure SyncMessage (Node : Type*) where
  sender : Node
  session : ℕ
  /-- The side that receives it. -/
  side : ClipboardSide
  clipboards : List Clipboard

/-- The machines, the sessions between them and the messages on their way. -/
structure Network (Node : Type*) where
  sessions : List (Session Node)
  board : Node → Board
  /-- `LAST_MULTI_CLIPBOARDS` of the processes. -/
  last : Node × ClipboardSide → List Clipboard
  /-- A `CallbackResult::Next` that a loop has not taken yet. -/
  notices : List (Node × ClipboardSide)
  messages : List (SyncMessage Node)
  /-- What users copied, and where. -/
  copied : List (Node × Board)

/-- What happens on the machines. -/
inductive SyncEvent (Node : Type*)
  /-- A user copies something. -/
  | copy (m : Node) (b : Board)
  /-- Sessions begin or end, or permissions change. -/
  | configure (sessions : List (Session Node))
  /-- The controller of a session has the peer's info, and `sync_init_clipboard` is set. -/
  | start (id : ℕ) (readOk : Bool)
  /-- A loop takes a notice. -/
  | check (i : ℕ) (readOk : Bool)
  /-- A thread of `update_clipboard` runs. -/
  | deliver (i : ℕ) (setOk : Bool)
  | loseNotice (i : ℕ)
  | loseMessage (i : ℕ)

variable {Node : Type*} [DecidableEq Node]

namespace Session

/-- Whether the machine sends over the session from this side. -/
def sendsFrom (x : Session Node) (m : Node) : ClipboardSide → Bool
  | .host => x.controlled == m && x.subscribed
  | .client => x.controller == m && x.textRequired

/-- Whether this side of the session keeps the machine's loop for the side running. -/
def listensAt (x : Session Node) (m : Node) : ClipboardSide → Bool
  | .host => x.controlled == m && x.subscribed
  | .client => x.controller == m

/-- The machine on a side of the session. -/
def machineOn (x : Session Node) : ClipboardSide → Node
  | .host => x.controlled
  | .client => x.controller

/-- Whether the side takes what arrives. -/
def acceptsOn (x : Session Node) : ClipboardSide → Bool
  | .host => x.clipboard
  | .client => !x.disableClipboard

/-- Whether the side reads more than one item. -/
def multiOn (x : Session Node) : ClipboardSide → Bool
  | .host => x.controlledMulti
  | .client => x.controllerMulti

end Session

/-- A text on its way. -/
def Clipboard.isText (c : Clipboard) : Bool :=
  ClipboardFormat.enumValue c.format == some .text

/-- `get_msg_if_not_support_multi_clip` and its callers: the first text for a side that reads only
one item, and everything if there is no text. -/
def forPeer (multi : Bool) (clipboards : List Clipboard) : List Clipboard :=
  if multi then clipboards
  else
    match clipboards.find? Clipboard.isText with
    | some c => [c]
    | none => clipboards

namespace Network

variable (w : World Node)

/-- One of the sessions makes this end listen on the machine. -/
def listens (s : Network Node) (m : Node) (side : ClipboardSide) : Bool :=
  s.sessions.any (·.listensAt m side)

/-- The loops of the machine that hear of a change. -/
def noticesOf (s : Network Node) (m : Node) : List (Node × ClipboardSide) :=
  ([.host, .client].filter (s.listens m)).map fun side => (m, side)

/-- The clipboard of a machine changes. -/
def setBoard (s : Network Node) (m : Node) (b : Board) : Network Node :=
  { s with
    board := Function.update s.board m b
    notices := s.notices ++ s.noticesOf m }

/-- Where a side of a machine keeps its last message. -/
def cache (m : Node) (side : ClipboardSide) : Node × ClipboardSide :=
  if w.oneProcess m then (m, .client) else (m, side)

/-- `check_clipboard`: the message, where there is something to send. -/
def checkClipboard (s : Network Node) (m : Node) (side : ClipboardSide) (readOk : Bool) :
    Option (List Clipboard) :=
  if readOk then
    let content := (s.board m).get (w.filesApart m) side false
    if content.isEmpty then none else some (createMultiClipboards w.compress content)
  else none

/-- The messages of one change to all peers of a side. -/
def messagesTo (s : Network Node) (m : Node) (side : ClipboardSide)
    (clipboards : List Clipboard) : List (SyncMessage Node) :=
  (s.sessions.filter (·.sendsFrom m side)).map fun x =>
    { sender := m
      session := x.id
      side := side.other
      clipboards := forPeer (x.multiOn side.other) clipboards }

/-- A loop handles a change: `get_clipboard_msg` and `ClientClipboardHandler::check_clipboard`. -/
def check (s : Network Node) (m : Node) (side : ClipboardSide) (readOk : Bool) :
    Network Node :=
  match s.checkClipboard w m side readOk with
  | none => s
  | some clipboards =>
    { s with
      last := Function.update s.last (cache w m side) clipboards
      messages := s.messages ++ s.messagesTo m side clipboards }

/-- The cached message of `get_current_clipboard_msg`, read anew where there is none. -/
def currentClipboards (s : Network Node) (m : Node) (readOk : Bool) : List Clipboard :=
  let last := s.last (cache w m .client)
  if last.isEmpty then
    if readOk then createMultiClipboards w.compress ((s.board m).get (w.filesApart m) .client true)
    else []
  else last

/-- `get_current_clipboard_msg`, and the message it gives the new session. -/
def syncInit (s : Network Node) (x : Session Node) (readOk : Bool) : Network Node :=
  let clipboards := s.currentClipboards w x.controller readOk
  let s := { s with last := Function.update s.last (cache w x.controller .client) clipboards }
  let sent :=
    if x.controlledMulti then clipboards else (clipboards.find? Clipboard.isText).toList
  if sent.isEmpty || !x.textRequired then s
  else
    { s with
      messages := s.messages ++
        [{ sender := x.controller, session := x.id, side := .host, clipboards := sent }] }

/-- `do_update_clipboard_`: the items, and the mark behind them. -/
def received (side : ClipboardSide) (clipboards : List Clipboard) : Board :=
  ⟨fromMultiClipboards w.decompress clipboards ++
    [.special rustdeskClipboardOwnerFormat side.getOwnerData], false⟩

/-- A side of a session handles a message. -/
def update (s : Network Node) (msg : SyncMessage Node) (setOk : Bool) : Network Node :=
  match s.sessions.find? (·.id = msg.session) with
  | none => s
  | some x =>
    if !x.acceptsOn msg.side then s
    else if (fromMultiClipboards w.decompress msg.clipboards).isEmpty then s
    else if !setOk then s
    else s.setBoard (x.machineOn msg.side) (received w msg.side msg.clipboards)

/-- One step of a user, of a listener or of a session. -/
def step (s : Network Node) : SyncEvent Node → Option (Network Node)
  | .copy m b =>
    -- only a session puts a mark on a clipboard
    if b.Owned then none else some { s.setBoard m b with copied := s.copied ++ [(m, b)] }
  | .configure sessions =>
    if (sessions.map (·.id)).Nodup then some { s with sessions } else none
  | .start id readOk => (s.sessions.find? (·.id = id)).map fun x => s.syncInit w x readOk
  | .check i readOk =>
    (s.notices[i]?).map fun (m, side) =>
      { s with notices := s.notices.eraseIdx i }.check w m side readOk
  | .deliver i setOk =>
    (s.messages[i]?).map fun msg =>
      { s with messages := s.messages.eraseIdx i }.update w msg setOk
  | .loseNotice i =>
    if i < s.notices.length then some { s with notices := s.notices.eraseIdx i } else none
  | .loseMessage i =>
    if i < s.messages.length then some { s with messages := s.messages.eraseIdx i } else none

/-- No session, and nothing on any clipboard. -/
def init : Network Node :=
  { sessions := []
    board := fun _ => Board.empty
    last := fun _ => []
    notices := []
    messages := []
    copied := [] }

end Network

/-- The machines with the sessions between them. -/
def syncNetwork (w : World Node) : Machine (Network Node) (SyncEvent Node) where
  init := Network.init
  step := Network.step w

/-! ### A small network -/

/-- Three machines, and a compressor that gains nothing. -/
def threeDesks : World (Fin 3) where
  compress := store
  decompress := unstore
  filesApart _ := false
  oneProcess _ := false

/-- The first machine controls the second. -/
def firstToSecond : Session (Fin 3) where
  id := 0
  controller := 0
  controlled := 1
  controller_ne_controlled := by decide
  textRequired := true
  disableClipboard := false
  subscribed := true
  clipboard := true
  controllerMulti := true
  controlledMulti := true

/-- A clipboard with one text. -/
def hello : Board := ⟨[.text "hello"], false⟩

/-- The state of the three machines after some events. -/
def Network.after (events : List (SyncEvent (Fin 3))) : Network (Fin 3) :=
  ((syncNetwork threeDesks).replay Network.init events).getD Network.init

end RdWeb.MultiClip
