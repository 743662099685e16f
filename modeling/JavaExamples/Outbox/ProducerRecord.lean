import JavaExamples.Outbox.HeaderCodec

/-!
# Kafka records from insert messages

`MapFromInsertMessage` reads the columns of an inserted outbox row, by the relation announced for
it, and builds the Kafka record: topic, key, value and headers. Whatever the row does not fit ends
the process, by `log.Fatal` or by a panic.
-/

namespace Outbox

/-- A Go `interface{}` other than `nil`, by the types the mapping asserts. A Go string and the bytes
it converts to are both `Text`. -/
inductive Value where
  | string (s : Text)
  | bytes (b : List UInt8)
  | other

/-- One column of an inserted tuple: its kind byte and its text. -/
structure TupleColumn where
  dataType : Char
  data : Text
deriving DecidableEq

/-- One column of a relation: its name and the OID of its type. -/
structure RelationColumn where
  name : Text
  dataType : ℕ
deriving DecidableEq

/-- `pglogrepl.RelationMessageV2`. -/
structure RelationMessageV2 where
  relationID : ℕ
  columns : List RelationColumn
deriving DecidableEq

/-- `pglogrepl.InsertMessageV2`; `columns` is its `Tuple.Columns`. -/
structure InsertMessageV2 where
  relationID : ℕ
  columns : List TupleColumn
deriving DecidableEq

/-- The relations announced so far, by id. -/
abbrev Relations := AList fun _ : ℕ => RelationMessageV2

/-- The text codec of each type `pgtype.Map` knows, by OID: a value (`none` for `nil`) or an
error. -/
abbrev TypeMap := ℕ → Option (Text → Except Text (Option Value))

/-- How the process ends on a message it cannot handle. -/
inductive Exit where
  | unparsableMessage
  | unknownRelation (relationID : ℕ)
  | undecodableColumn (err : Text)
  | panic

/-- `kafka.Message`, to any partition of its topic; the headers come in no particular order. -/
structure Message where
  topic : Text
  key : Option Text
  value : Option (List UInt8)
  headers : HeaderMap

namespace ProducerRecord

/-- The values read so far, by column name; `none` is `nil`. -/
abbrev Values := AList fun _ : Text => Option Value

/-- A value by its type's codec, or the text itself where the type is unknown. -/
def decodeTextColumnData (typeMap : TypeMap) (data : Text) (dataType : ℕ) :
    Except Text (Option Value) :=
  match typeMap dataType with
  | some codec => codec data
  | none => .ok (some (.string data))

/-- The loop body of `MapFromInsertMessage` for the column at `idx`. -/
def readColumn (typeMap : TypeMap) (rel : RelationMessageV2) (values : Values)
    (column : TupleColumn × ℕ) : Except Exit Values :=
  let (col, idx) := column
  match rel.columns[idx]? with
  | none => .error .panic  -- index out of range
  | some relColumn =>
    if col.dataType = 'n' then .ok (values.insert relColumn.name none)
    else if col.dataType = 'u' then .ok values
    else if col.dataType = 't' then
      match decodeTextColumnData typeMap col.data relColumn.dataType with
      | .error err => .error (.undecodableColumn err)
      | .ok val => .ok (values.insert relColumn.name val)
    else .ok values

/-- `values[name]`, `nil` for a name that is not there. -/
def column (values : Values) (name : String) : Option Value := (values.lookup name.toList).join

/-- The type assertion `v.(string)`. -/
def asString : Option Value → Except Exit Text
  | some (.string s) => .ok s
  | _ => .error .panic

/-- The type assertion `v.([]byte)`. -/
def asBytes : Option Value → Except Exit (List UInt8)
  | some (.bytes b) => .ok b
  | _ => .error .panic

def mapHeaders : Option Value → Except Exit HeaderMap
  | none => .ok ∅
  | some rawHeaders => DecodeHeadersFromBase64 <$> asString (some rawHeaders)

/-- The Kafka record of an inserted row. -/
def MapFromInsertMessage (logicalMsg : InsertMessageV2) (relations : Relations)
    (typeMap : TypeMap) : Except Exit Message := do
  let rel ← match relations.lookup logicalMsg.relationID with
    | some rel => .ok rel
    | none => .error (.unknownRelation logicalMsg.relationID)
  let values ← logicalMsg.columns.zipIdx.foldlM (readColumn typeMap rel) ∅
  let topic ← asString (column values "nam_topic")
  let key ← match column values "txt_key" with
    | none => .ok none
    | key => some <$> asString key
  let value ← match column values "txt_value" with
    | none => .ok none
    | value => some <$> asBytes value
  let headers ← mapHeaders (column values "txt_headers")
  return { topic, key, value, headers }

end ProducerRecord

end Outbox
