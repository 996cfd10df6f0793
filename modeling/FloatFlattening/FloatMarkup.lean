import FloatFlattening.Block.Basic
/-!
The float that stands for a block: a template whose slots take the block's image, caption and
label.
-/

namespace FloatFlattening.FloatMarkup

def imageSlot : Text := "\x7bimage\x7d"

def captionSlot : Text := "\x7bcaption\x7d"

def labelSlot : Text := "\x7blabel\x7d"

def defaultFigure : Text :=
  Text.joinWith "\n" [
    "\\begin\x7bfigure\x7d[htbp]",
    "    \\centering",
    "    \\includegraphics[width=\\linewidth]\x7b\x7bimage\x7d\x7d",
    "    \\caption\x7b\x7bcaption\x7d\x7d",
    "    \\label\x7b\x7blabel\x7d\x7d",
    "\\end\x7bfigure\x7d"]

/-- The image stands in a `tabular`, so that the float goes on being numbered as a table. -/
def defaultTable : Text :=
  Text.joinWith "\n" [
    "\\begin\x7btable\x7d[htbp]",
    "    \\centering",
    "    \\caption\x7b\x7bcaption\x7d\x7d",
    "    \\label\x7b\x7blabel\x7d\x7d",
    "    \\begin\x7btabular\x7d\x7bl\x7d",
    "    \\includegraphics[width=\\linewidth]\x7b\x7bimage\x7d\x7d",
    "    \\end\x7btabular\x7d",
    "\\end\x7btable\x7d"]

/-- A line with a slot for a caption or label that there is not is left out. -/
def isKept (caption label : Option Text) (line : Text) : Bool :=
  !(caption.isNone && Text.occursIn captionSlot line || label.isNone && Text.occursIn labelSlot line)

def fillLine (image : Text) (caption label : Option Text) (line : Text) : Text :=
  (Pattern.word captionSlot).exchange (caption.getD [])
    ((Pattern.word labelSlot).exchange (label.getD [])
      ((Pattern.word imageSlot).exchange image line))

/-- Slots are filled line by line, the image's first, then the label's and the caption's. -/
def render (template image : Text) (caption label : Option Text) : Text :=
  Text.joinWith "\n" <|
    (template.lines.filter (isKept caption label)).map (fillLine image caption label)

end FloatFlattening.FloatMarkup
