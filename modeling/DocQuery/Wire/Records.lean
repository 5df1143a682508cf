import DocQuery.Compile.Result
import DocQuery.Config
import DocQuery.Request
import DocQuery.Wire.AttributeValue

/-!
# DocQuery.Wire.Records

Requests, responses and settings on the wire.
-/

namespace DocQuery

instance : Wire ReturnValue where
  encode value := .string value.name
  decode? document :=
    (variantName? document).bind fun name => ReturnValue.all.find? fun value => value.name = name

instance : Wire Select where
  encode value := .string value.name
  decode? document :=
    (variantName? document).bind fun name => Select.all.find? fun value => value.name = name

open Fields (field whenPresent unlessEmpty)
open RecordReader (required optional defaulted)

def UpdateRequest.reader : RecordReader UpdateRequest :=
  UpdateRequest.mk <$> required "TableName" <*> required "Key" <*> optional "UpdateExpression" <*>
    optional "ConditionExpression" <*> defaulted "ExpressionAttributeNames" ∅ <*>
    defaulted "ExpressionAttributeValues" ∅ <*> optional "ReturnValues"

instance : Wire UpdateRequest where
  encode request := .object <|
    field "TableName" request.table ++
    field "Key" request.key ++
    whenPresent "UpdateExpression" request.update ++
    whenPresent "ConditionExpression" request.condition ++
    unlessEmpty request.names.isEmpty "ExpressionAttributeNames" request.names ++
    unlessEmpty request.values.isEmpty "ExpressionAttributeValues" request.values ++
    whenPresent "ReturnValues" request.returnValues
  decode? := UpdateRequest.reader.decode?

def DeleteRequest.reader : RecordReader DeleteRequest :=
  DeleteRequest.mk <$> required "TableName" <*> required "Key" <*>
    optional "ConditionExpression" <*> defaulted "ExpressionAttributeNames" ∅ <*>
    defaulted "ExpressionAttributeValues" ∅ <*> optional "ReturnValues"

instance : Wire DeleteRequest where
  encode request := .object <|
    field "TableName" request.table ++
    field "Key" request.key ++
    whenPresent "ConditionExpression" request.condition ++
    unlessEmpty request.names.isEmpty "ExpressionAttributeNames" request.names ++
    unlessEmpty request.values.isEmpty "ExpressionAttributeValues" request.values ++
    whenPresent "ReturnValues" request.returnValues
  decode? := DeleteRequest.reader.decode?

def QueryRequest.reader : RecordReader QueryRequest :=
  QueryRequest.mk <$> required "TableName" <*> optional "IndexName" <*>
    optional "KeyConditionExpression" <*> optional "FilterExpression" <*>
    optional "ProjectionExpression" <*> defaulted "ExpressionAttributeNames" ∅ <*>
    defaulted "ExpressionAttributeValues" ∅ <*> optional "ScanIndexForward" <*> optional "Limit" <*>
    optional "Select" <*> optional "ConsistentRead"

instance : Wire QueryRequest where
  encode request := .object <|
    field "TableName" request.table ++
    whenPresent "IndexName" request.index ++
    whenPresent "KeyConditionExpression" request.keyCondition ++
    whenPresent "FilterExpression" request.filter ++
    whenPresent "ProjectionExpression" request.projection ++
    unlessEmpty request.names.isEmpty "ExpressionAttributeNames" request.names ++
    unlessEmpty request.values.isEmpty "ExpressionAttributeValues" request.values ++
    whenPresent "ScanIndexForward" request.forward ++
    whenPresent "Limit" request.limit ++
    whenPresent "Select" request.select ++
    whenPresent "ConsistentRead" request.consistent
  decode? := QueryRequest.reader.decode?

def ScanRequest.reader : RecordReader ScanRequest :=
  ScanRequest.mk <$> required "TableName" <*> optional "IndexName" <*>
    optional "FilterExpression" <*> optional "ProjectionExpression" <*>
    defaulted "ExpressionAttributeNames" ∅ <*> defaulted "ExpressionAttributeValues" ∅ <*>
    optional "Limit" <*> optional "Select" <*> optional "ConsistentRead"

instance : Wire ScanRequest where
  encode request := .object <|
    field "TableName" request.table ++
    whenPresent "IndexName" request.index ++
    whenPresent "FilterExpression" request.filter ++
    whenPresent "ProjectionExpression" request.projection ++
    unlessEmpty request.names.isEmpty "ExpressionAttributeNames" request.names ++
    unlessEmpty request.values.isEmpty "ExpressionAttributeValues" request.values ++
    whenPresent "Limit" request.limit ++
    whenPresent "Select" request.select ++
    whenPresent "ConsistentRead" request.consistent
  decode? := ScanRequest.reader.decode?

def WriteResponse.reader : RecordReader WriteResponse :=
  WriteResponse.mk <$> defaulted "Attributes" ∅

instance : Wire WriteResponse where
  encode response := .object <|
    unlessEmpty response.attributes.isEmpty "Attributes" response.attributes
  decode? := WriteResponse.reader.decode?

def ReadResponse.reader : RecordReader ReadResponse :=
  ReadResponse.mk <$> defaulted "Items" [] <*> defaulted "Count" 0 <*>
    defaulted "ScannedCount" 0 <*> defaulted "LastEvaluatedKey" ∅

instance : Wire ReadResponse where
  encode response := .object <|
    unlessEmpty response.items.isEmpty "Items" response.items ++
    field "Count" response.count ++
    field "ScannedCount" response.scanned ++
    unlessEmpty response.lastKey.isEmpty "LastEvaluatedKey" response.lastKey
  decode? := ReadResponse.reader.decode?

def CompiledCondition.reader : RecordReader CompiledCondition :=
  CompiledCondition.mk <$> required "ConditionExpression" <*>
    required "ExpressionAttributeNames" <*> required "ExpressionAttributeValues"

instance : Wire CompiledCondition where
  encode compiled := .object <|
    field "ConditionExpression" compiled.expression ++
    field "ExpressionAttributeNames" compiled.names ++
    field "ExpressionAttributeValues" compiled.values
  decode? := CompiledCondition.reader.decode?

def CompiledUpdate.reader : RecordReader CompiledUpdate :=
  CompiledUpdate.mk <$> required "UpdateExpression" <*> required "ExpressionAttributeNames" <*>
    required "ExpressionAttributeValues"

instance : Wire CompiledUpdate where
  encode compiled := .object <|
    field "UpdateExpression" compiled.expression ++
    field "ExpressionAttributeNames" compiled.names ++
    field "ExpressionAttributeValues" compiled.values
  decode? := CompiledUpdate.reader.decode?

def Config.reader : RecordReader Config :=
  Config.mk <$> optional "tablePrefix" <*> required "prefixDelimiter"

/-- A missing qualifier is written as null. -/
instance : Wire Config where
  encode config := .object <|
    [("tablePrefix", (config.qualifier.map encode).getD .null)] ++
    field "prefixDelimiter" config.delimiter
  decode? := Config.reader.decode?

end DocQuery
