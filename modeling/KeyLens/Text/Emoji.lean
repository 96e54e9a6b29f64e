import KeyLens.Text.InversionList

/-!
# Emoji

Characters that are shown as pictures, by themselves or with a character after them that asks for
it, and how they make up one picture together.
-/

namespace KeyLens.Text

/-- The changes of the property `Emoji`, in increasing order. -/
def emojiBounds : List Nat := [
  35, 36, 42, 43, 48, 58, 169, 170, 174, 175, 8252, 8253, 8265, 8266, 8482, 8483, 8505, 8506, 8596,
  8602, 8617, 8619, 8986, 8988, 9000, 9001, 9167, 9168, 9193, 9204, 9208, 9211, 9410, 9411, 9642,
  9644, 9654, 9655, 9664, 9665, 9723, 9727, 9728, 9733, 9742, 9743, 9745, 9746, 9748, 9750, 9752,
  9753, 9757, 9758, 9760, 9761, 9762, 9764, 9766, 9767, 9770, 9771, 9774, 9776, 9784, 9787, 9792,
  9793, 9794, 9795, 9800, 9812, 9823, 9825, 9827, 9828, 9829, 9831, 9832, 9833, 9851, 9852, 9854,
  9856, 9874, 9880, 9881, 9882, 9883, 9885, 9888, 9890, 9895, 9896, 9898, 9900, 9904, 9906, 9917,
  9919, 9924, 9926, 9928, 9929, 9934, 9936, 9937, 9938, 9939, 9941, 9961, 9963, 9968, 9974, 9975,
  9979, 9981, 9982, 9986, 9987, 9989, 9990, 9992, 9998, 9999, 10000, 10002, 10003, 10004, 10005,
  10006, 10007, 10013, 10014, 10017, 10018, 10024, 10025, 10035, 10037, 10052, 10053, 10055, 10056,
  10060, 10061, 10062, 10063, 10067, 10070, 10071, 10072, 10083, 10085, 10133, 10136, 10145, 10146,
  10160, 10161, 10175, 10176, 10548, 10550, 11013, 11016, 11035, 11037, 11088, 11089, 11093, 11094,
  12336, 12337, 12349, 12350, 12951, 12952, 12953, 12954, 126980, 126981, 127183, 127184, 127344,
  127346, 127358, 127360, 127374, 127375, 127377, 127387, 127462, 127488, 127489, 127491, 127514,
  127515, 127535, 127536, 127538, 127547, 127568, 127570, 127744, 127778, 127780, 127892, 127894,
  127896, 127897, 127900, 127902, 127985, 127987, 127990, 127991, 128254, 128255, 128318, 128329,
  128335, 128336, 128360, 128367, 128369, 128371, 128379, 128391, 128392, 128394, 128398, 128400,
  128401, 128405, 128407, 128420, 128422, 128424, 128425, 128433, 128435, 128444, 128445, 128450,
  128453, 128465, 128468, 128476, 128479, 128481, 128482, 128483, 128484, 128488, 128489, 128495,
  128496, 128499, 128500, 128506, 128592, 128640, 128710, 128715, 128723, 128725, 128728, 128732,
  128742, 128745, 128746, 128747, 128749, 128752, 128753, 128755, 128765, 128992, 129004, 129008,
  129009, 129292, 129339, 129340, 129350, 129351, 129536, 129648, 129661, 129664, 129674, 129679,
  129735, 129742, 129757, 129759, 129770, 129776, 129785]

/-- The changes of the property `Emoji_Presentation`, in increasing order. -/
def pictureBounds : List Nat := [
  8986, 8988, 9193, 9197, 9200, 9201, 9203, 9204, 9725, 9727, 9748, 9750, 9800, 9812, 9855, 9856,
  9875, 9876, 9889, 9890, 9898, 9900, 9917, 9919, 9924, 9926, 9934, 9935, 9940, 9941, 9962, 9963,
  9970, 9972, 9973, 9974, 9978, 9979, 9981, 9982, 9989, 9990, 9994, 9996, 10024, 10025, 10060,
  10061, 10062, 10063, 10067, 10070, 10071, 10072, 10133, 10136, 10160, 10161, 10175, 10176, 11035,
  11037, 11088, 11089, 11093, 11094, 126980, 126981, 127183, 127184, 127374, 127375, 127377, 127387,
  127462, 127488, 127489, 127490, 127514, 127515, 127535, 127536, 127538, 127543, 127544, 127547,
  127568, 127570, 127744, 127777, 127789, 127798, 127799, 127869, 127870, 127892, 127904, 127947,
  127951, 127956, 127968, 127985, 127988, 127989, 127992, 128063, 128064, 128065, 128066, 128253,
  128255, 128318, 128331, 128335, 128336, 128360, 128378, 128379, 128405, 128407, 128420, 128421,
  128507, 128592, 128640, 128710, 128716, 128717, 128720, 128723, 128725, 128728, 128732, 128736,
  128747, 128749, 128756, 128765, 128992, 129004, 129008, 129009, 129292, 129339, 129340, 129350,
  129351, 129536, 129648, 129661, 129664, 129674, 129679, 129735, 129742, 129757, 129759, 129770,
  129776, 129785]

/-- The changes of the property `Emoji_Modifier_Base`, in increasing order. -/
def modifierBaseBounds : List Nat := [
  9757, 9758, 9977, 9978, 9994, 9998, 127877, 127878, 127938, 127941, 127943, 127944, 127946,
  127949, 128066, 128068, 128070, 128081, 128102, 128121, 128124, 128125, 128129, 128132, 128133,
  128136, 128143, 128144, 128145, 128146, 128170, 128171, 128372, 128374, 128378, 128379, 128400,
  128401, 128405, 128407, 128581, 128584, 128587, 128592, 128675, 128676, 128692, 128695, 128704,
  128705, 128716, 128717, 129292, 129293, 129295, 129296, 129304, 129312, 129318, 129319, 129328,
  129338, 129340, 129343, 129399, 129400, 129461, 129463, 129464, 129466, 129467, 129468, 129485,
  129488, 129489, 129502, 129731, 129734, 129776, 129785]

/-- The changes of the set of pictures that can be shown as text on demand, in increasing order. -/
def textStyleBounds : List Nat := [
  8986, 8988, 9193, 9195, 9203, 9204, 9725, 9727, 9748, 9750, 9800, 9812, 9855, 9856, 9875,
  9876, 9889, 9890, 9898, 9900, 9917, 9919, 9924, 9926, 9940, 9941, 9962, 9963, 9970, 9972,
  9973, 9974, 9978, 9979, 9981, 9982, 10067, 10068, 10071, 10072, 11035, 11037, 11088, 11089,
  11093, 11094, 126980, 126981, 127757, 127760, 127765, 127766, 127772, 127773, 127864, 127865,
  127891, 127892, 127911, 127912, 127916, 127919, 127938, 127939, 127940, 127941, 127942,
  127943, 127946, 127947, 127968, 127969, 127981, 127982, 128008, 128009, 128021, 128022,
  128031, 128032, 128038, 128039, 128066, 128067, 128070, 128074, 128077, 128079, 128083,
  128084, 128106, 128107, 128125, 128126, 128163, 128164, 128176, 128177, 128179, 128180,
  128187, 128188, 128191, 128192, 128203, 128204, 128218, 128219, 128223, 128224, 128228,
  128231, 128234, 128238, 128247, 128248, 128249, 128252, 128264, 128265, 128269, 128270,
  128274, 128276, 128336, 128360, 128528, 128529, 128647, 128648, 128653, 128654, 128657,
  128658, 128660, 128661, 128664, 128665, 128685, 128686, 128690, 128691, 128697, 128699,
  128700, 128701]

/-- The character that asks for a picture. -/
def pictureSelector : Char := '\ufe0f'

/-- The character that asks for text. -/
def textSelector : Char := '\ufe0e'

/-- The character that joins its neighbours. -/
def joiner : Char := '\u200d'

/-- A letter of which two make a flag. -/
def isRegional (c : Char) : Bool :=
  0x1F1E6 ≤ c.toNat && c.toNat ≤ 0x1F1FF

/-- A picture by itself. -/
def isPicture (c : Char) : Bool :=
  inInversionList pictureBounds c.toNat && !isRegional c

/-- A picture that is shown as text on demand. -/
def hasTextStyle (c : Char) : Bool :=
  inInversionList textStyleBounds c.toNat

/-- A character that is shown as a picture on demand. -/
def hasPictureStyle (c : Char) : Bool :=
  hasTextStyle c || (inInversionList emojiBounds c.toNat && !inInversionList pictureBounds c.toNat)

/-- A character that changes the tone of the picture before it. -/
def isModifier (c : Char) : Bool :=
  0x1F3FB ≤ c.toNat && c.toNat ≤ 0x1F3FF

/-- A picture that has tones. -/
def isModifierBase (c : Char) : Bool :=
  inInversionList modifierBaseBounds c.toNat

/-- The number of characters behind `c` that belong to one picture with it; none if it is no
picture. -/
def picture? (c : Char) (rest : List Char) : Option Nat :=
  match rest with
  | [] => if isPicture c then some 0 else none
  | d :: _ =>
    if d = pictureSelector ∧ hasPictureStyle c then some 1
    else if isModifier d ∧ isModifierBase c then some 1
    else if d = textSelector ∧ hasTextStyle c then none
    else if isPicture c then some 0
    else none

/-- Whether another picture is joined to the one before `text`. -/
def isJoined : List Char → Bool
  | j :: c :: rest => j == joiner && (picture? c rest).isSome
  | _ => false

end KeyLens.Text
