import AutoDJ.Sticker.Basic

namespace AutoDJ

structure StickerRow where
  type : Option String
  uri : Option String
  name : Option String
  value : Option String
deriving Repr, DecidableEq

namespace StickerRow

def belongsTo (uri : String) (row : StickerRow) : Bool :=
  row.type == some "song" && row.uri == some uri

end StickerRow

/--
A sticker database: its rows in the order in which they are read, unless the table is missing.
-/
structure StickerTable where
  rows? : Option (List StickerRow)
deriving Repr, DecidableEq

namespace StickerTable

def collect : List StickerRow → Option Sticker → Except Error (Option Sticker)
  | [], sticker => .ok sticker
  | row :: rows, sticker =>
    match row.name, row.value with
    | some name, some value => collect rows (some ((sticker.getD {}).apply name value))
    | _, _ => .error (.sticker "a column of the row has no value")

def lookup (table : StickerTable) (uri : String) : Except Error (Option Sticker) :=
  match table.rows? with
  | none => .error (.sticker "there is no table of stickers")
  | some rows => collect (rows.filter (StickerRow.belongsTo uri)) none

def store (table : StickerTable) : StickerStore s := fun uri state =>
  match table.lookup uri with
  | .ok sticker => .ok sticker state
  | .error e => .error e state

end StickerTable

end AutoDJ
