import RecordService.Mapping.Location
import RecordService.Yaml.Node

namespace RecordService

def yamlDialect : Dialect where
  name := "YAML"
  value? := Yaml.ofWord?
  wordIsText := true
  blankIsEmpty := true
  levels := 128

def MappingDocument.ofYamlText (limits : Limits) (text : String) :
    Except MappingError MappingDocument :=
  ofMarkup yamlDialect limits (Yaml.markup? text)

def formats (limits : Limits) : Formats :=
  let yaml := MappingDocument.ofYamlText limits
  Dict.ofList [("json", MappingDocument.ofJsonText limits), ("yaml", yaml), ("yml", yaml)]

end RecordService
